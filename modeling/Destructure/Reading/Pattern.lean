import Destructure.Pattern.Basic
import Destructure.Reading.Value

/-!
Reading patterns. Choices bind loosest, then conjunctions, then negations. Names have meanings of
their own: four of them build composites, those of kinds test a kind, three are literals, one is
the wildcard, and every other name is a variable, unless brackets behind it make it a shape or a
tag.
-/

namespace Destructure

variable {α : Type}

namespace Reading

def literal? : Lexeme → Option (Value α)
  | .int number => some (.int number)
  | .float number => some (.float number)
  | .string text => some (.string text)
  | .symbol name => some (.symbol name)
  | _ => none

def called (name : String) (items : List (Pattern α)) : Pattern α :=
  match name with
  | "Seq" => .sequence items
  | "And" => .and items
  | "Or" => .or items
  | "Not" => .not items
  | shape => .deconstruct (.named shape) items

def meaning? (name : String) : Option (Pattern α) :=
  match name with
  | "_" => some .wildcard
  | "nil" => some (.literal .nil)
  | "true" => some (.literal (.bool true))
  | "false" => some (.literal (.bool false))
  | "Seq" | "And" | "Or" | "Not" => none
  | name =>
    match Kind.ofName? name with
    | some kind => some (.kind kind)
    | none => some (.bind name)

def endsEntry : List Token → Bool
  | ⟨.comma, _⟩ :: _ => true
  | ⟨.closing _, _⟩ :: _ => true
  | [] => true
  | _ => false

def keyedEntry [BEq α] (endPosition allowance : Nat) (pattern : Reader (Pattern α)) :
    Reader (Value α × Pattern α) := fun tokens =>
  let full : Except ReadFailure ((Value α × Pattern α) × List Token) := do
    let (key, rest) ← value endPosition allowance tokens
    let rest ← behind endPosition .arrow rest
    let (content, rest) ← pattern rest
    return ((key, content), rest)
  match tokens with
  | ⟨.symbol name, _⟩ :: rest =>
    if endsEntry rest then .ok (Pattern.bareEntry name, rest) else full
  | _ => full

def keyedField (endPosition : Nat) (pattern : Reader (Pattern α)) :
    Reader (Value α × Pattern α)
  | ⟨.symbol name, _⟩ :: rest => .ok (Pattern.bareEntry name, rest)
  | ⟨.name name, _⟩ :: rest => do
    let rest ← behind endPosition .colon rest
    let (content, rest) ← pattern rest
    return ((.symbol name, content), rest)
  | tokens => refuse endPosition .field tokens

def primary [Regex.Engine] [BEq α] (endPosition allowance : Nat) (pattern : Reader (Pattern α)) :
    Reader (Pattern α) := fun tokens =>
  let items (bracket : Bracket) := listUpTo endPosition bracket pattern (allowance + 1)
  match tokens with
  | ⟨.opening .square, _⟩ :: rest => do
    let (items, rest) ← items .square rest
    return (Pattern.list items, rest)
  | ⟨.opening .curly, _⟩ :: rest => do
    let (entries, rest) ←
      listUpTo endPosition .curly (keyedEntry endPosition allowance pattern) (allowance + 1) rest
    return (.keyed .map entries, rest)
  | ⟨.opening .round, _⟩ :: rest => do
    let (inner, rest) ← pattern rest
    let rest ← behind endPosition (.closing .round) rest
    return (inner, rest)
  | ⟨.repetition minimum lazy, _⟩ :: rest =>
    .ok (.repetition minimum (if lazy then some .lazy else none), rest)
  | ⟨.regex source, _⟩ :: rest =>
    match Regex.compile source with
    | .error message => .error (.badRegex message)
    | .ok expression =>
      match rest with
      | ⟨.opening .round, _⟩ :: rest => do
        let (items, rest) ← items .round rest
        return (.deconstruct (.regex expression) items, rest)
      | rest =>
        .ok (.deconstruct (.regex expression) (List.replicate expression.partCount .wildcard), rest)
  | ⟨.name name, _⟩ :: ⟨.opening .round, _⟩ :: rest => do
    let (items, rest) ← items .round rest
    return (called name items, rest)
  | ⟨.name tag, _⟩ :: ⟨.opening .curly, _⟩ :: rest => do
    let (entries, rest) ←
      listUpTo endPosition .curly (keyedField endPosition pattern) (allowance + 1) rest
    return (.keyed (.record tag) entries, rest)
  | ⟨.name name, _⟩ :: rest =>
    match meaning? name with
    | some pattern => .ok (pattern, rest)
    | none => refuse endPosition (.parenthesisAfter name) rest
  | token :: rest =>
    match literal? token.lexeme with
    | some literal => .ok (.literal literal, rest)
    | none => refuse endPosition .pattern (token :: rest)
  | [] => refuse endPosition .pattern []

def negated (primary : Reader (Pattern α)) : Reader (Pattern α)
  | ⟨.bang, _⟩ :: rest => do
    let (operand, rest) ← negated primary rest
    return (.not [operand], rest)
  | tokens => primary tokens

def composite (operator : List (Pattern α) → Pattern α) : List (Pattern α) → Pattern α
  | [operand] => operand
  | operands => operator operands

def conjunction (allowance : Nat) (operand : Reader (Pattern α)) : Reader (Pattern α) :=
  fun tokens => do
    let (operands, rest) ← operands .ampersand operand (allowance + 1) tokens
    return (composite .and operands, rest)

def choice (allowance : Nat) (operand : Reader (Pattern α)) : Reader (Pattern α) :=
  fun tokens => do
    let (operands, rest) ← operands .bar operand (allowance + 1) tokens
    return (composite .or operands, rest)

def pattern [Regex.Engine] [BEq α] (endPosition : Nat) : (allowance : Nat) → Reader (Pattern α)
  | 0, _ => .error .exhausted
  | allowance + 1, tokens =>
    choice allowance
      (conjunction allowance
        (negated (primary endPosition allowance (pattern endPosition allowance)))) tokens

end Reading

def Pattern.parse [Regex.Engine] [BEq α] (source : String) : Except ReadFailure (Pattern α) :=
  Reading.readAll Reading.pattern source

end Destructure
