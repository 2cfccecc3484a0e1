import Destructure.Decomposition.Decomposer
import Destructure.Error

/-!
Decomposers by name. A shape with a name is looked up here; that nothing is registered under it is
an error of the pattern, while a decomposer that rejects a value only makes the match fail.
-/

namespace Destructure

structure Registry (α : Type) where
  decomposers : List (String × Decomposer α)

namespace Registry

variable {α : Type}

def empty : Registry α := ⟨[]⟩

def register (registry : Registry α) (name : String) (decomposer : Decomposer α) : Registry α :=
  ⟨(name, decomposer) :: registry.decomposers.filter fun entry => entry.1 != name⟩

def registerRecord (registry : Registry α) (tag : String) : Registry α :=
  registry.register tag (.record tag)

def standard : Registry α :=
  ((empty.register Pattern.listShape .list).register "Rational" .rational).register "Complex"
    .complex

def find? (registry : Registry α) (name : String) : Option (Decomposer α) :=
  registry.decomposers.lookup name

def contains (registry : Registry α) (name : String) : Bool := (registry.find? name).isSome

def resolve (registry : Registry α) : Shape → Except (Error α) (Decomposer α)
  | .named name =>
    match registry.find? name with
    | some decomposer => .ok decomposer
    | none => .error (.unimplementedShape name)
  | .record tag => .ok (.record tag)
  | .regex expression => .ok (.regex expression)

def decompose (registry : Registry α) (shape : Shape) (value : Value α) :
    Except (Error α) (Option (List (Value α))) :=
  (registry.resolve shape).map fun decomposer => decomposer value

/-! ## What holds of all decomposers -/

def All (property : Decomposer α → Prop) (registry : Registry α) : Prop :=
  ∀ entry ∈ registry.decomposers, property entry.2

namespace All

variable {property : Decomposer α → Prop} {registry : Registry α}

theorem register (all : registry.All property) (name : String) {decomposer : Decomposer α}
    (holds : property decomposer) : (registry.register name decomposer).All property :=
  List.forall_mem_cons.mpr ⟨holds, fun entry member => all entry (List.mem_filter.mp member).1⟩

theorem records (all : registry.All property) (ofRecord : ∀ tag, property (.record tag))
    (tags : List String) : (tags.foldl registerRecord registry).All property := by
  induction tags generalizing registry with
  | nil => exact all
  | cons tag tags induction => exact induction (all.register tag (ofRecord tag))

theorem standard (ofList : property .list) (ofRational : property .rational)
    (ofComplex : property .complex) : (standard : Registry α).All property := by
  have nothing : (empty : Registry α).All property := fun entry member => by cases member
  exact ((nothing.register _ ofList).register _ ofRational).register _ ofComplex

theorem resolve (all : registry.All property) (ofRecord : ∀ tag, property (.record tag))
    (ofRegex : ∀ expression, property (.regex expression)) {shape : Shape}
    {decomposer : Decomposer α} (resolved : registry.resolve shape = .ok decomposer) :
    property decomposer := by
  cases shape with
  | named name =>
      rw [Registry.resolve] at resolved
      split at resolved
      next found =>
        cases resolved
        obtain ⟨before, behind, split, -⟩ := List.lookup_eq_some_iff.mp found
        exact all (name, decomposer) (by rw [split]; simp)
      next => cases resolved
  | record tag =>
      cases resolved
      exact ofRecord tag
  | regex expression =>
      cases resolved
      exact ofRegex expression

end All

end Registry

end Destructure
