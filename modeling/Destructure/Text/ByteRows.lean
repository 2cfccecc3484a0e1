import Destructure.Text.CodeRanges

/-!
Sets of characters as sets of byte strings. The UTF-8 encodings of the characters of a table fill
rows of byte intervals: a character is in the table exactly if the bytes of its encoding lie, one
after the other, in the intervals of one of the rows. The rows come in ascending order, and none
can be joined with the next one.
-/

namespace Destructure.Text

abbrev ByteRow := List (Nat × Nat)

namespace ByteRow

/-- The rows of the codes between two bounds, whose encodings have the given number of
continuation bytes. The first byte of an encoding stands above `lead` by the topmost digit of its
code to base 64. -/
def between : (continuations : Nat) → (lead lowest highest : Nat) → List ByteRow
  | 0, lead, lowest, highest => [[(lead + lowest, lead + highest)]]
  | continuations + 1, lead, lowest, highest =>
    let weight := 64 ^ (continuations + 1)
    let below (digit : Nat) (lowest highest : Nat) : List ByteRow :=
      (between continuations 0x80 lowest highest).map ((lead + digit, lead + digit) :: ·)
    let first := lowest / weight
    let last := highest / weight
    if first = last then below first (lowest % weight) (highest % weight)
    else
      let firstFull := if lowest % weight = 0 then first else first + 1
      let behindFull := if highest % weight = weight - 1 then last + 1 else last
      let starting := if first < firstFull then below first (lowest % weight) (weight - 1) else []
      let full :=
        if firstFull < behindFull then
          [(lead + firstFull, lead + behindFull - 1) ::
            List.replicate (continuations + 1) (0x80, 0xBF)]
        else []
      let ending := if behindFull ≤ last then below last 0 (highest % weight) else []
      starting ++ full ++ ending

/-- The codes of equally long encodings: their bounds, how many continuation bytes they have and
above which byte their first byte stands. There is no encoding for surrogates. -/
def zones : List (Nat × Nat × Nat × Nat) :=
  [(0, 0x7F, 0, 0), (0x80, 0x7FF, 1, 0xC0), (0x800, 0xD7FF, 2, 0xE0), (0xE000, 0xFFFF, 2, 0xE0),
    (0x10000, 0x10FFFF, 3, 0xF0)]

def ofCodeRanges (ranges : CodeRanges) : List ByteRow :=
  ranges.flatMap fun (lowest, highest) =>
    zones.flatMap fun (zoneStart, zoneEnd, continuations, lead) =>
      let lowest := max lowest zoneStart
      let highest := min highest zoneEnd
      if lowest ≤ highest then between continuations lead lowest highest else []

def ownLength : ByteRow → ByteRow → Nat
  | interval :: row, interval' :: row' =>
    if interval = interval' then ownLength row row' else row.length + 1
  | row, _ => row.length

/-- How many different starts, other than the empty one, the rows behind a previous one have that
it does not share. Rows in ascending order share starts only with their neighbours. -/
def countStarts (previous : ByteRow) : List ByteRow → Nat
  | [] => 0
  | row :: rows => ownLength row previous + countStarts row rows

end ByteRow

end Destructure.Text
