import Destructure.Matching.Bindings

/-!
Names that are visible at a point of a program. Each name has a stack of values. Entering a scope
puts its bindings on top, leaving it takes them off again in reverse order, so what a name meant
outside is back afterwards. A name without values has no stack.
-/

namespace Destructure

structure Environment (α : Type) where
  /-- Names with their values, the innermost value first. -/
  table : List (String × List (Value α))

namespace Environment

variable {α : Type}

def empty : Environment α := ⟨[]⟩

def stack (environment : Environment α) (name : String) : List (Value α) :=
  (environment.table.lookup name).getD []

def get? (environment : Environment α) (name : String) : Option (Value α) :=
  (environment.stack name).head?

def depth (environment : Environment α) (name : String) : Nat := (environment.stack name).length

def isEmpty (environment : Environment α) : Bool := environment.table.isEmpty

def pushOnto (name : String) (value : Value α) :
    List (String × List (Value α)) → List (String × List (Value α))
  | [] => [(name, [value])]
  | (present, values) :: others =>
    if present = name then (present, value :: values) :: others
    else (present, values) :: pushOnto name value others

def popFrom (name : String) : List (String × List (Value α)) → List (String × List (Value α))
  | [] => []
  | (present, values) :: others =>
    if present = name then
      match values.tail with
      | [] => others
      | rest => (present, rest) :: others
    else (present, values) :: popFrom name others

def push (environment : Environment α) (name : String) (value : Value α) : Environment α :=
  ⟨pushOnto name value environment.table⟩

def pop (environment : Environment α) (name : String) : Environment α :=
  ⟨popFrom name environment.table⟩

def enter (environment : Environment α) (bindings : Bindings α) : Environment α :=
  bindings.pairs.foldl (fun environment (name, value) => environment.push name value) environment

def leave (environment : Environment α) (names : List String) : Environment α :=
  names.reverse.foldl pop environment

end Environment

end Destructure
