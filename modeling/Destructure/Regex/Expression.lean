import Destructure.Text.CaseFolding
import Destructure.Text.Character

/-!
Regular expressions as trees. Flags have been resolved: whether a set of characters ignores case,
what an anchor means and which end of a repetition is tried first stands in the tree itself.
-/

namespace Destructure.Regex

inductive SetOperator where
  | intersection
  | difference
  | symmetricDifference
  deriving DecidableEq

def SetOperator.combine : SetOperator → Bool → Bool → Bool
  | intersection, first, second => first && second
  | difference, first, second => first && !second
  | symmetricDifference, first, second => first != second

inductive CharacterSet where
  /-- Intervals of code points; ignoring case, also what differs from one of them in case. -/
  | intervals (ignoreCase : Bool) (bounds : List (Char × Char))
  | word
  | digit
  | blank
  | complement (set : CharacterSet)
  /-- What stands between brackets, behind a mark for the complement or not. -/
  | bracket (negated : Bool) (set : CharacterSet)
  | either (sets : List CharacterSet)
  | combined (operator : SetOperator) (first second : CharacterSet)

namespace CharacterSet

def boundsContain (bounds : List (Char × Char)) (code : Nat) : Bool :=
  bounds.any fun (lowest, highest) => lowest.toNat ≤ code && code ≤ highest.toNat

mutual
def contains : CharacterSet → Char → Bool
  | intervals false bounds, character => boundsContain bounds character.toNat
  | intervals true bounds, character =>
    (Text.caseVariants character.toNat).any (boundsContain bounds)
  | word, character => Text.isWordCharacter character
  | digit, character => Text.isDecimalDigit character
  | blank, character => Text.isBlank character
  | complement set, character => !contains set character
  | bracket negated set, character => negated != contains set character
  | either sets, character => anyContains sets character
  | combined operator first second, character =>
    operator.combine (contains first character) (contains second character)
termination_by structural set => set

def anyContains : List CharacterSet → Char → Bool
  | [], _ => false
  | set :: sets, character => contains set character || anyContains sets character
termination_by structural sets => sets
end

def empty : CharacterSet := intervals false []

def any : CharacterSet := complement empty

def single (ignoreCase : Bool) (character : Char) : CharacterSet :=
  intervals ignoreCase [(character, character)]

def union : List CharacterSet → CharacterSet
  | [] => empty
  | [set] => set
  | sets => either sets

mutual
def depth : CharacterSet → Nat
  | intervals _ _ | word | digit | blank => 0
  | complement set => depth set
  | bracket _ set => depth set + 1
  | either sets => greatestDepth sets + 1
  | combined _ first second => max (depth first) (depth second) + 1
termination_by structural set => set

def greatestDepth : List CharacterSet → Nat
  | [] => 0
  | set :: sets => max (depth set) (greatestDepth sets)
termination_by structural sets => sets
end

end CharacterSet

inductive Anchor where
  | textStart
  | textEnd
  /-- A line feed ends a line and, on request, a carriage return, too. -/
  | lineStart (carriageReturns : Bool)
  | lineEnd (carriageReturns : Bool)
  -- what belongs to a word is given as a set
  | wordBoundary (words : CharacterSet)
  | insideWord (words : CharacterSet)
  | wordStart (words : CharacterSet)
  | wordEnd (words : CharacterSet)
  | outsideWordBefore (words : CharacterSet)
  | outsideWordAfter (words : CharacterSet)

namespace Anchor

def holds (anchor : Anchor) (text : Array Char) (position : Nat) : Bool :=
  let before := if position = 0 then none else text[position - 1]?
  let after := text[position]?
  match anchor with
  | textStart => before.isNone
  | textEnd => after.isNone
  | lineStart false => before.all (· == '\n')
  | lineStart true =>
    before.all fun character => character == '\n' || character == '\r' && after != some '\n'
  | lineEnd false => after.all (· == '\n')
  | lineEnd true =>
    after.all fun character => character == '\r' || character == '\n' && before != some '\r'
  | wordBoundary words => before.any words.contains != after.any words.contains
  | insideWord words => before.any words.contains == after.any words.contains
  | wordStart words => !before.any words.contains && after.any words.contains
  | wordEnd words => before.any words.contains && !after.any words.contains
  | outsideWordBefore words => !before.any words.contains
  | outsideWordAfter words => !after.any words.contains

end Anchor

inductive Expression where
  | empty
  | set (set : CharacterSet)
  | anchor (anchor : Anchor)
  /-- A group; with an index, what it matches is recorded under that index. -/
  | group (index : Option Nat) (body : Expression)
  | sequence (parts : List Expression)
  /-- The alternatives are tried in order. -/
  | choice (alternatives : List Expression)
  /-- At least `minimum` times and at most `maximum` times, if there is a limit. Greedy ones try
  another repetition first, lazy ones try to go on first. -/
  | repeated (body : Expression) (minimum : Nat) (maximum : Option Nat) (greedy : Bool)

namespace Expression

def inSequence : List Expression → Expression
  | [] => empty
  | [part] => part
  | parts => sequence parts

def amongAlternatives : List Expression → Expression
  | [alternative] => alternative
  | alternatives => choice alternatives

/-! ## Measures -/

mutual
def depth : Expression → Nat
  | empty | anchor _ => 0
  | set characters => characters.depth
  | group _ body => depth body + 1
  | sequence parts => greatestDepth parts + 1
  | choice alternatives => greatestDepth alternatives + 1
  | repeated body _ _ _ => depth body + 1
termination_by structural expression => expression

def greatestDepth : List Expression → Nat
  | [] => 0
  | expression :: expressions => max (depth expression) (greatestDepth expressions)
termination_by structural expressions => expressions
end

mutual
def onlyEmpty : Expression → Bool
  | empty | anchor _ => true
  | set _ => false
  | group _ body => onlyEmpty body
  | sequence parts => allOnlyEmpty parts
  | choice alternatives => allOnlyEmpty alternatives
  | repeated body _ maximum _ => maximum == some 0 || onlyEmpty body
termination_by structural expression => expression

def allOnlyEmpty : List Expression → Bool
  | [] => true
  | expression :: expressions => onlyEmpty expression && allOnlyEmpty expressions
termination_by structural expressions => expressions
end

mutual
def alwaysConsumes : Expression → Bool
  | empty | anchor _ => false
  | set _ => true
  | group _ body => alwaysConsumes body
  | sequence parts => someConsume parts
  | choice alternatives => allConsume alternatives
  | repeated body minimum _ _ => minimum != 0 && alwaysConsumes body
termination_by structural expression => expression

def someConsume : List Expression → Bool
  | [] => false
  | expression :: expressions => alwaysConsumes expression || someConsume expressions
termination_by structural expressions => expressions

def allConsume : List Expression → Bool
  | [] => true
  | expression :: expressions => alwaysConsumes expression && allConsume expressions
termination_by structural expressions => expressions
end

mutual
def greatestGroup : Expression → Nat
  | empty | set _ | anchor _ => 0
  | group index body => max (index.getD 0) (greatestGroup body)
  | sequence parts => greatestGroupOf parts
  | choice alternatives => greatestGroupOf alternatives
  | repeated body _ _ _ => greatestGroup body
termination_by structural expression => expression

def greatestGroupOf : List Expression → Nat
  | [] => 0
  | expression :: expressions => max (greatestGroup expression) (greatestGroupOf expressions)
termination_by structural expressions => expressions
end

/-! ## Normal form of repetitions -/

/-- A repetition. What can only match the empty text is repeated once at most, and what is
repeated no times, groups included, is left out. -/
def repetition (body : Expression) (minimum : Nat) (maximum : Option Nat) (greedy : Bool) :
    Expression :=
  let limit (bound : Nat) : Nat := if onlyEmpty body then min bound 1 else bound
  let minimum := limit minimum
  let maximum := match maximum with
    | some bound => some (limit bound)
    | none => if onlyEmpty body then some 1 else none
  if maximum = some 0 then empty
  else if minimum = 1 ∧ maximum = some 1 then body
  else repeated body minimum maximum greedy

mutual
def normalize : Expression → Expression
  | empty => empty
  | set characters => set characters
  | anchor condition => anchor condition
  | group index body => group index (normalize body)
  | sequence parts => sequence (normalizeAll parts)
  | choice alternatives => choice (normalizeAll alternatives)
  | repeated body minimum maximum greedy => repetition (normalize body) minimum maximum greedy
termination_by structural expression => expression

def normalizeAll : List Expression → List Expression
  | [] => []
  | expression :: expressions => normalize expression :: normalizeAll expressions
termination_by structural expressions => expressions
end

end Expression

end Destructure.Regex
