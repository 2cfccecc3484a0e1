import Destructure.Number.ComplexNumber
import Destructure.Number.Fraction

/-!
The values that patterns are matched against. Objects of the application are carried along as
values of a type of their own, about which no more is asked than an equality, a type name and a
description. Equality of values is structural, except that numbers compare numerically: the two
zeros of double precision are equal wherever they stand.
-/

namespace Destructure

class Foreign (α : Type) extends BEq α where
  typeName : α → String
  describe : α → String

instance : Foreign Empty where
  beq object _ := object.elim
  typeName object := object.elim
  describe object := object.elim

inductive Value (α : Type) where
  | nil
  | bool (truth : Bool)
  | int (number : Int64)
  | float (number : Number.Binary64)
  | string (text : String)
  | symbol (name : String)
  | list (items : List (Value α))
  | map (entries : List (Value α × Value α))
  | record (tag : String) (fields : List (String × Value α))
  | rational (fraction : Number.Fraction)
  | complex (number : Number.ComplexNumber)
  | foreign (object : α)

variable {α : Type}

instance : Inhabited (Value α) := ⟨.nil⟩

/-! ## Equality -/

mutual
def Value.equals [BEq α] : Value α → Value α → Bool
  | .nil, .nil => true
  | .bool first, .bool second => first == second
  | .int first, .int second => first == second
  | .float first, .float second => first.equals second
  | .string first, .string second => first == second
  | .symbol first, .symbol second => first == second
  | .list first, .list second => Value.itemsEqual first second
  | .map first, .map second => Value.entriesEqual first second
  | .record tag first, .record tag' second => tag == tag' && Value.fieldsEqual first second
  | .rational first, .rational second => first == second
  | .complex first, .complex second => first.equals second
  | .foreign first, .foreign second => first == second
  | _, _ => false
termination_by structural first => first

def Value.itemsEqual [BEq α] : List (Value α) → List (Value α) → Bool
  | [], [] => true
  | first :: firsts, second :: seconds =>
    Value.equals first second && Value.itemsEqual firsts seconds
  | _, _ => false
termination_by structural firsts => firsts

def Value.entriesEqual [BEq α] : List (Value α × Value α) → List (Value α × Value α) → Bool
  | [], [] => true
  | (key, first) :: firsts, (key', second) :: seconds =>
    Value.equals key key' && Value.equals first second && Value.entriesEqual firsts seconds
  | _, _ => false
termination_by structural firsts => firsts

def Value.fieldsEqual [BEq α] : List (String × Value α) → List (String × Value α) → Bool
  | [], [] => true
  | (name, first) :: firsts, (name', second) :: seconds =>
    name == name' && Value.equals first second && Value.fieldsEqual firsts seconds
  | _, _ => false
termination_by structural firsts => firsts
end

instance [BEq α] : BEq (Value α) := ⟨Value.equals⟩

namespace Value

/-! ## Maps and records -/

/-- Give a key a value: in place if the key is there already, at the end otherwise. -/
def setEntry [BEq α] (key content : Value α) :
    List (Value α × Value α) → List (Value α × Value α)
  | [] => [(key, content)]
  | (present, former) :: entries =>
    if present == key then (present, content) :: entries
    else (present, former) :: setEntry key content entries

def mapOf [BEq α] (entries : List (Value α × Value α)) : Value α :=
  .map (entries.foldl (fun table entry => setEntry entry.1 entry.2 table) [])

def get? [BEq α] (value key : Value α) : Option (Value α) :=
  match value with
  | .map entries => (entries.find? fun entry => entry.1 == key).map Prod.snd
  | _ => none

def fieldOf? (name : String) (fields : List (String × Value α)) : Option (Value α) :=
  (fields.find? fun field => field.1 == name).map Prod.snd

def field? (value : Value α) (name : String) : Option (Value α) :=
  match value with
  | .record _ fields => fieldOf? name fields
  | _ => none

/-! ## Views -/

def text? : Value α → Option String
  | .string text => some text
  | .symbol name => some name
  | _ => none

def items? : Value α → Option (List (Value α))
  | .list items => some items
  | _ => none

def int? : Value α → Option Int64
  | .int number => some number
  | _ => none

end Value

end Destructure
