import Destructure.Value.Basic

/-!
Kinds of values. Every value is of one exact kind, and `number` gathers the four numeric ones.
-/

namespace Destructure

inductive Kind where
  | nil
  | bool
  | int
  | float
  | number
  | string
  | symbol
  | list
  | map
  | record
  | rational
  | complex
  | foreign
  deriving DecidableEq

namespace Kind

def all : List Kind :=
  [nil, bool, int, float, number, string, symbol, list, map, record, rational, complex, foreign]

def name : Kind → String
  | nil => "Nil"
  | bool => "Bool"
  | int => "Int"
  | float => "Float"
  | number => "Number"
  | string => "Str"
  | symbol => "Sym"
  | list => "List"
  | map => "Map"
  | record => "Record"
  | rational => "Rational"
  | complex => "Complex"
  | foreign => "Foreign"

def ofName? (name : String) : Option Kind := all.find? fun kind => kind.name == name

end Kind

variable {α : Type}

def Value.kind : Value α → Kind
  | .nil => .nil
  | .bool _ => .bool
  | .int _ => .int
  | .float _ => .float
  | .string _ => .string
  | .symbol _ => .symbol
  | .list _ => .list
  | .map _ => .map
  | .record _ _ => .record
  | .rational _ => .rational
  | .complex _ => .complex
  | .foreign _ => .foreign

namespace Kind

def isNumeric : Kind → Bool
  | int | float | rational | complex => true
  | _ => false

def accepts (kind : Kind) (value : Value α) : Bool :=
  match kind with
  | number => value.kind.isNumeric
  | exact => value.kind == exact

theorem mem_all (kind : Kind) : kind ∈ all := by cases kind <;> decide

theorem ofName?_name (kind : Kind) : ofName? kind.name = some kind := by cases kind <;> decide

end Kind

end Destructure
