import Destructure.Reading.Grammar
import Destructure.Value.Basic

/-!
Reading values. Lists, maps and records are written with their brackets; in a map an arrow stands
between a key and its content, in a record a colon between a name and its content.
-/

namespace Destructure

variable {α : Type}

namespace Reading

def mapEntry (endPosition : Nat) (value : Reader (Value α)) : Reader (Value α × Value α) :=
  fun tokens => do
    let (key, rest) ← value tokens
    let rest ← behind endPosition .arrow rest
    let (content, rest) ← value rest
    return ((key, content), rest)

def recordField (endPosition : Nat) (value : Reader (Value α)) : Reader (String × Value α)
  | ⟨.name name, _⟩ :: rest => do
    let rest ← behind endPosition .colon rest
    let (content, rest) ← value rest
    return ((name, content), rest)
  | tokens => refuse endPosition .fieldName tokens

def value [BEq α] (endPosition : Nat) : (allowance : Nat) → Reader (Value α)
  | 0, _ => .error .exhausted
  | allowance + 1, tokens =>
    match tokens with
    | ⟨.int number, _⟩ :: rest => .ok (.int number, rest)
    | ⟨.float number, _⟩ :: rest => .ok (.float number, rest)
    | ⟨.string text, _⟩ :: rest => .ok (.string text, rest)
    | ⟨.symbol name, _⟩ :: rest => .ok (.symbol name, rest)
    | ⟨.opening .square, _⟩ :: rest => do
      let (items, rest) ←
        listUpTo endPosition .square (value endPosition allowance) (allowance + 1) rest
      return (.list items, rest)
    | ⟨.opening .curly, _⟩ :: rest => do
      let (entries, rest) ←
        listUpTo endPosition .curly (mapEntry endPosition (value endPosition allowance))
          (allowance + 1) rest
      return (Value.mapOf entries, rest)
    | ⟨.name "nil", _⟩ :: rest => .ok (.nil, rest)
    | ⟨.name "true", _⟩ :: rest => .ok (.bool true, rest)
    | ⟨.name "false", _⟩ :: rest => .ok (.bool false, rest)
    | ⟨.name tag, _⟩ :: ⟨.opening .curly, _⟩ :: rest => do
      let (fields, rest) ←
        listUpTo endPosition .curly (recordField endPosition (value endPosition allowance))
          (allowance + 1) rest
      return (.record tag fields, rest)
    | tokens => refuse endPosition .value tokens

end Reading

def Value.parse [BEq α] (source : String) : Except ReadFailure (Value α) :=
  Reading.readAll Reading.value source

end Destructure
