import Destructure.Regex.Expression
import Destructure.Text.ByteRows

/-!
How much memory an expression takes as an automaton that reads the bytes of a text. There are two
automata, one that reads forwards and records groups, and one that reads backwards. An expression
is too large if one of them takes more than ten mebibytes, so what is refused does not depend on
how a search goes about its work.
-/

namespace Destructure.Regex

/-- The bytes that a state of an automaton takes, that a branch of a state adds, and that an
interval of bytes adds to a state that tells several intervals apart. -/
def stateBytes : Nat := 32
def branchBytes : Nat := 4
def intervalBytes : Nat := 8

def footprintLimit : Nat := 10 * Nat.pow 2 20

namespace CharacterSet

mutual
def ranges : CharacterSet → Text.CodeRanges
  | intervals ignoreCase bounds =>
    let table := Text.CodeRanges.ofRanges
      (bounds.map fun (lowest, highest) => (lowest.toNat, highest.toNat))
    if ignoreCase then table.closeUnderCase else table
  | word => Text.wordRanges
  | digit => Text.decimalDigitRanges
  | blank => Text.blankRanges
  | complement set => (ranges set).complement
  | bracket negated set => if negated then (ranges set).complement else ranges set
  | either sets => allRanges sets
  | combined .intersection first second => (ranges first).intersection (ranges second)
  | combined .difference first second => (ranges first).difference (ranges second)
  | combined .symmetricDifference first second =>
    ((ranges first).difference (ranges second)).union ((ranges second).difference (ranges first))
termination_by structural set => set

def allRanges : List CharacterSet → Text.CodeRanges
  | [] => []
  | set :: sets => (ranges set).union (allRanges sets)
termination_by structural sets => sets
end

def footprint (forwards : Bool) (set : CharacterSet) : Nat :=
  let ranges := set.ranges
  let rows := Text.ByteRow.ofCodeRanges ranges
  let longest := rows.foldl (fun length row => max length row.length) 0
  if ranges.all (fun range => range.1 = range.2) && rows.length = 1 then stateBytes * longest
  else if longest ≤ 1 then
    2 * stateBytes + (if rows.length = 1 then 0 else intervalBytes * rows.length)
  else if forwards then stateBytes * (longest + 1)
  else
    stateBytes * (2 + Text.ByteRow.countStarts [] rows) + branchBytes * rows.length

end CharacterSet

namespace Expression

def repetitionFootprint (body : Nat) (consumes : Bool) (minimum : Nat) (maximum : Option Nat) :
    Nat :=
  let fork := stateBytes + 2 * branchBytes
  match maximum with
  | none =>
    if minimum = 0 && !consumes then body + 2 * fork + stateBytes
    else max minimum 1 * body + fork
  | some maximum =>
    if minimum = maximum then minimum * body
    else if minimum = 0 && maximum = 1 then body + fork + stateBytes
    else
      (if minimum = 0 then stateBytes else minimum * body) + stateBytes +
        (maximum - minimum) * (body + fork)

def setsOf? (alternatives : List Expression) : Option (List CharacterSet) :=
  alternatives.mapM fun
    | set characters => some characters
    | _ => none

mutual
def footprint (forwards : Bool) : Expression → Nat
  | empty | anchor _ => stateBytes
  | set characters => characters.footprint forwards
  | group index body =>
    (if forwards && index.isSome then 2 * stateBytes else 0) + footprint forwards body
  | sequence parts => rowFootprint forwards parts
  | choice alternatives =>
    match setsOf? alternatives with
    | some sets => (CharacterSet.union sets).footprint forwards
    | none =>
      2 * stateBytes + branchBytes * alternatives.length + totalFootprint forwards alternatives
  | repeated body minimum maximum _ =>
    repetitionFootprint (footprint forwards body) body.alwaysConsumes minimum maximum
termination_by structural expression => expression

def rowFootprint (forwards : Bool) : List Expression → Nat
  | [] => 0
  | empty :: parts => rowFootprint forwards parts
  | part :: parts => footprint forwards part + rowFootprint forwards parts
termination_by structural parts => parts

def totalFootprint (forwards : Bool) : List Expression → Nat
  | [] => 0
  | expression :: expressions =>
    footprint forwards expression + totalFootprint forwards expressions
termination_by structural expressions => expressions
end

/-- Whether the automata of an expression take no more than they may. Each has a state where it
begins and one where it accepts, and the one that reads forwards records the whole match. -/
def isSmall (expression : Expression) : Bool :=
  4 * stateBytes + footprint true expression ≤ footprintLimit &&
    2 * stateBytes + footprint false expression ≤ footprintLimit

end Expression

end Destructure.Regex
