import Destructure.Value.Printer

/-!
The outcome of a match: values under names, in the order in which the names first occur in the
pattern. A name may be given twice when bindings are put together by hand; the first one counts.
-/

namespace Destructure

structure Bindings (α : Type) where
  pairs : List (String × Value α)

namespace Bindings

variable {α : Type}

def empty : Bindings α := ⟨[]⟩

instance : Inhabited (Bindings α) := ⟨empty⟩

instance [BEq α] : BEq (Bindings α) :=
  ⟨fun first second => Value.fieldsEqual first.pairs second.pairs⟩

def get? (bindings : Bindings α) (name : String) : Option (Value α) :=
  Value.fieldOf? name bindings.pairs

def contains (bindings : Bindings α) (name : String) : Bool := (bindings.get? name).isSome

def names (bindings : Bindings α) : List String := bindings.pairs.map Prod.fst

def size (bindings : Bindings α) : Nat := bindings.pairs.length

def isEmpty (bindings : Bindings α) : Bool := bindings.pairs.isEmpty

def unboundMessage (name : String) : String := name ++ " is not bound"

def pairText [Foreign α] (pair : String × Value α) : List Char :=
  Value.pairText pair.1.toList [' ', '=', ' '] pair.2.render

def render [Foreign α] (bindings : Bindings α) : List Char :=
  Text.commaSeparated (bindings.pairs.map pairText)

def text [Foreign α] (bindings : Bindings α) : String := String.ofList bindings.render

def lines [Foreign α] (bindings : Bindings α) : List String :=
  bindings.pairs.map fun pair => String.ofList (pairText pair)

end Bindings

end Destructure
