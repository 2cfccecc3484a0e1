import Destructure.Pattern.Basic

/-!
Taking values apart. A decomposer turns a value into the row of its parts or rejects it; an empty
row is a success. Keyed deconstructions look their parts up instead.
-/

namespace Destructure

abbrev Decomposer (α : Type) := Value α → Option (List (Value α))

namespace Decomposer

variable {α : Type}

def list : Decomposer α := Value.items?

def rational : Decomposer α
  | .rational fraction => some [.int fraction.numerator, .int fraction.denominator]
  | _ => none

def complex : Decomposer α
  | .complex number => some [.float number.real, .float number.imaginary]
  | _ => none

def record (tag : String) : Decomposer α
  | .record tag' fields => if tag' = tag then some (fields.map Prod.snd) else none
  | _ => none

/-- The parts of a text that a regular expression matches as a whole; a group that took no part
is nil. -/
def regex (expression : Regex) : Decomposer α := fun value => do
  let text ← value.text?
  let parts ← expression.parts? text
  some (parts.map fun
    | some part => .string part
    | none => .nil)

end Decomposer

namespace KeyedShape

variable {α : Type}

def lookup? [BEq α] (shape : KeyedShape) (keys : List (Value α)) (value : Value α) :
    Option (List (Value α)) :=
  match shape, value with
  | .map, .map entries => keys.mapM fun key => (Value.map entries).get? key
  | .record tag, .record tag' fields =>
    if tag' = tag then keys.mapM fun key => key.text?.bind fun name => Value.fieldOf? name fields
    else none
  | _, _ => none

end KeyedShape

end Destructure
