/-!
Sets of code points as ascending tables of inclusive ranges. A table is read from its start and
left as soon as its ranges lie above the code point that is looked for, so the characters of the
first ranges, ASCII above all, are decided after a few comparisons.
-/

namespace Destructure.Text

abbrev CodeRanges := List (Nat × Nat)

namespace CodeRanges

def contains : CodeRanges → Nat → Bool
  | [], _ => false
  | (lowest, highest) :: higher, code =>
    if code < lowest then false
    else if code ≤ highest then true
    else contains higher code

def Ascending : (bound : Nat) → CodeRanges → Prop
  | _, [] => True
  | bound, (lowest, highest) :: higher =>
    bound ≤ lowest ∧ lowest ≤ highest ∧ Ascending (highest + 1) higher

theorem not_contains_of_lt {bound code : Nat} {ranges : CodeRanges}
    (ascending : Ascending bound ranges) (below : code < bound) :
    contains ranges code = false := by
  cases ranges with
  | nil => rfl
  | cons range higher =>
    rcases range with ⟨lowest, highest⟩
    have : code < lowest := Nat.lt_of_lt_of_le below ascending.1
    simp [contains, this]

/-- On an ascending table, leaving early loses nothing. -/
theorem contains_iff {bound : Nat} {ranges : CodeRanges} (ascending : Ascending bound ranges)
    (code : Nat) :
    contains ranges code = true ↔ ∃ range ∈ ranges, range.1 ≤ code ∧ code ≤ range.2 := by
  induction ranges generalizing bound with
  | nil => simp [contains]
  | cons range higher induction =>
    rcases range with ⟨lowest, highest⟩
    rcases ascending with ⟨_, _, rest⟩
    have nowhere : code < highest + 1 → contains higher code = false := not_contains_of_lt rest
    have inside := induction rest
    simp only [List.mem_cons, exists_eq_or_imp, ← inside, contains]
    by_cases below : code < lowest
    · rw [if_pos below]
      constructor
      · intro absurd
        cases absurd
      · rintro (here | above)
        · omega
        · rw [nowhere (by omega)] at above
          cases above
    · rw [if_neg below]
      by_cases within : code ≤ highest
      · rw [if_pos within]
        exact ⟨fun _ => Or.inl ⟨Nat.le_of_not_lt below, within⟩, fun _ => rfl⟩
      · rw [if_neg within]
        exact ⟨Or.inr, fun either => either.resolve_left fun here => within here.2⟩

/-! ## Combining tables -/

def lastCode : Nat := 0x10FFFF

def complementFrom (start : Nat) : CodeRanges → CodeRanges
  | [] => if start ≤ lastCode then [(start, lastCode)] else []
  | (lowest, highest) :: higher =>
    let gaps := complementFrom (highest + 1) higher
    if start < lowest then (start, lowest - 1) :: gaps else gaps

def complement (ranges : CodeRanges) : CodeRanges := complementFrom 0 ranges

def commonRanges : (allowance : Nat) → CodeRanges → CodeRanges → CodeRanges
  | allowance + 1, (lowest, highest) :: higher, (lowest', highest') :: higher' =>
    let further :=
      if highest < highest' then commonRanges allowance higher ((lowest', highest') :: higher')
      else commonRanges allowance ((lowest, highest) :: higher) higher'
    let start := max lowest lowest'
    let stop := min highest highest'
    if start ≤ stop then (start, stop) :: further else further
  | _, _, _ => []

def intersection (first second : CodeRanges) : CodeRanges :=
  commonRanges (first.length + second.length) first second

def union (first second : CodeRanges) : CodeRanges :=
  complement (intersection (complement first) (complement second))

def difference (first second : CodeRanges) : CodeRanges :=
  intersection first (complement second)

def ofRanges (ranges : List (Nat × Nat)) : CodeRanges :=
  ranges.foldl (fun table range => union table [range]) []

end CodeRanges

end Destructure.Text
