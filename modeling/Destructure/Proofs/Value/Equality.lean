import Destructure.Decomposition.Decomposer
import Destructure.Proofs.Value.Parts
import Destructure.Value.Kind

/-!
Equality of values as a relation. As far as equality of the application's objects is symmetric and
transitive, so is that of values; and equal values show the same wherever they are looked at: their
kind, their text, and, up to equality again, what they hold under a key.

Main statements: `Value.equal_of_beq`, the instance of `PartialEquivBEq`, and
`KeyedShape.lookup?_rel`.
-/

namespace Destructure

variable {α : Type}

/-! ## Numbers -/

namespace Number

theorem Binary64.equals_comm (first second : Binary64) :
    first.equals second = second.equals first := by
  cases first <;> cases second <;>
    simp [equals, Bool.and_comm, Bool.and_left_comm, Bool.beq_comm]

def Binary64.IsZero (number : Binary64) : Prop :=
  ∃ negative exponent, number = .finite negative 0 exponent

/-- Only zeros can be equal without being the same. -/
theorem Binary64.equals_iff {first second : Binary64} :
    first.equals second ↔ first = second ∨ first.IsZero ∧ second.IsZero := by
  cases first <;> cases second <;> simp [equals, IsZero, and_assoc, or_comm]

theorem Binary64.equals_trans {first second third : Binary64} (equal : first.equals second)
    (equalToo : second.equals third) : first.equals third := by
  rw [equals_iff] at equal equalToo ⊢
  rcases equal with rfl | ⟨isZero, isZeroToo⟩
  · exact equalToo
  · rcases equalToo with rfl | ⟨-, isZeroAsWell⟩
    · exact .inr ⟨isZero, isZeroToo⟩
    · exact .inr ⟨isZero, isZeroAsWell⟩

theorem ComplexNumber.equals_comm (first second : ComplexNumber) :
    first.equals second = second.equals first := by
  rw [equals, equals, Binary64.equals_comm first.real, Binary64.equals_comm first.imaginary]

theorem ComplexNumber.equals_trans {first second third : ComplexNumber}
    (equal : first.equals second) (equalToo : second.equals third) : first.equals third := by
  rw [equals, Bool.and_eq_true] at equal equalToo ⊢
  exact ⟨Binary64.equals_trans equal.1 equalToo.1, Binary64.equals_trans equal.2 equalToo.2⟩

end Number

namespace Value

/-! ## Induction over components -/

def components : Value α → List (Value α)
  | list items => items
  | map entries => entries.map Prod.fst ++ entries.map Prod.snd
  | record _ fields => fields.map Prod.snd
  | nil | bool _ | int _ | float _ | string _ | symbol _ | rational _ | complex _ | foreign _ => []

mutual
/-- A property holds throughout if it passes from the components of a value to the value. -/
@[elab_as_elim]
theorem induction_on_components {motive : Value α → Prop} :
    ∀ value : Value α,
      (∀ value, (∀ component ∈ components value, motive component) → motive value) → motive value
  | list items, step => step _ (forall_mem_of_step items step)
  | map entries, step => step _ (forall_entry_of_step entries step)
  | record _ fields, step => step _ (forall_field_of_step fields step)
  | nil, step | bool _, step | int _, step | float _, step | string _, step | symbol _, step
  | rational _, step | complex _, step | foreign _, step => step _ fun _ member => nomatch member
termination_by structural value => value

theorem forall_mem_of_step {motive : Value α → Prop} :
    ∀ items : List (Value α),
      (∀ value, (∀ component ∈ components value, motive component) → motive value) →
      ∀ item ∈ items, motive item
  | [], _ => List.forall_mem_nil _
  | first :: others, step => List.forall_mem_cons.mpr
      ⟨induction_on_components first step, forall_mem_of_step others step⟩
termination_by structural items => items

theorem forall_entry_of_step {motive : Value α → Prop} :
    ∀ entries : List (Value α × Value α),
      (∀ value, (∀ component ∈ components value, motive component) → motive value) →
      ∀ component ∈ entries.map Prod.fst ++ entries.map Prod.snd, motive component
  | [], _ => List.forall_mem_nil _
  | (key, content) :: others, step => by
      have inside := List.forall_mem_append.mp (forall_entry_of_step others step)
      exact List.forall_mem_append.mpr
        ⟨List.forall_mem_cons.mpr ⟨induction_on_components key step, inside.1⟩,
          List.forall_mem_cons.mpr ⟨induction_on_components content step, inside.2⟩⟩
termination_by structural entries => entries

theorem forall_field_of_step {motive : Value α → Prop} :
    ∀ fields : List (String × Value α),
      (∀ value, (∀ component ∈ components value, motive component) → motive value) →
      ∀ component ∈ fields.map Prod.snd, motive component
  | [], _ => List.forall_mem_nil _
  | (_, content) :: others, step => List.forall_mem_cons.mpr
      ⟨induction_on_components content step, forall_field_of_step others step⟩
termination_by structural fields => fields
end

section

variable [BEq α]

/-! ## Equality, constructor by constructor -/

inductive Equal : Value α → Value α → Prop where
  | nil : Equal .nil .nil
  | bool (truth : Bool) : Equal (.bool truth) (.bool truth)
  | int (number : Int64) : Equal (.int number) (.int number)
  | float {first second} : first.equals second → Equal (.float first) (.float second)
  | string (text : String) : Equal (.string text) (.string text)
  | symbol (name : String) : Equal (.symbol name) (.symbol name)
  | list {firsts seconds} :
      List.Forall₂ (fun first second => first == second) firsts seconds →
      Equal (.list firsts) (.list seconds)
  | map {firsts seconds} :
      List.Forall₂ (fun first second => first.1 == second.1 ∧ first.2 == second.2)
        firsts seconds →
      Equal (.map firsts) (.map seconds)
  | record (tag : String) {firsts seconds} :
      List.Forall₂ (fun first second => first.1 = second.1 ∧ first.2 == second.2)
        firsts seconds →
      Equal (.record tag firsts) (.record tag seconds)
  | rational (fraction : Number.Fraction) : Equal (.rational fraction) (.rational fraction)
  | complex {first second} : first.equals second → Equal (.complex first) (.complex second)
  | foreign {first second} : first == second → Equal (.foreign first) (.foreign second)

theorem Equal.beq {first second : Value α} (equal : Equal first second) : first == second := by
  rw [beq_eq]
  cases equal with
  | list related => exact itemsEqual_iff.mpr related
  | map related => exact entriesEqual_iff.mpr related
  | record tag related =>
      rw [equals, Bool.and_eq_true]
      exact ⟨beq_self_eq_true tag, fieldsEqual_iff.mpr related⟩
  | float equal => exact equal
  | complex equal => exact equal
  | foreign equal => exact equal
  | _ => simp [equals]

theorem equal_of_beq {first second : Value α} (equal : first == second) : Equal first second := by
  rw [beq_eq] at equal
  -- What is left are the pairs of the same constructor.
  cases first <;> cases second <;> first | cases equal; done | rw [equals] at equal
  case nil => exact .nil
  case bool => exact eq_of_beq equal ▸ .bool _
  case int => exact eq_of_beq equal ▸ .int _
  case float => exact .float equal
  case string => exact eq_of_beq equal ▸ .string _
  case symbol => exact eq_of_beq equal ▸ .symbol _
  case list => exact .list (itemsEqual_iff.mp equal)
  case map => exact .map (entriesEqual_iff.mp equal)
  case record =>
    rcases Bool.and_eq_true_iff.mp equal with ⟨sameTag, related⟩
    exact eq_of_beq sameTag ▸ .record _ (fieldsEqual_iff.mp related)
  case rational => exact eq_of_beq equal ▸ .rational _
  case complex => exact .complex equal
  case foreign => exact .foreign equal

/-! ## Symmetry and transitivity -/

theorem forall₂_trans {First Second Third : Type} {here : First → Second → Prop}
    {onward : Second → Third → Prop} {whole : First → Third → Prop} {firsts : List First}
    {seconds : List Second} {thirds : List Third} (related : List.Forall₂ here firsts seconds)
    (relatedToo : List.Forall₂ onward seconds thirds)
    (trans : ∀ first ∈ firsts, ∀ second third, here first second → onward second third →
      whole first third) : List.Forall₂ whole firsts thirds := by
  induction related generalizing thirds with
  | nil =>
      cases relatedToo
      exact .nil
  | cons head tail induction =>
      cases relatedToo with
      | cons headToo tailToo =>
          rcases List.forall_mem_cons.mp trans with ⟨transHead, transTail⟩
          exact .cons (transHead _ _ head headToo) (induction tailToo transTail)

theorem forall₂_symm {First Second : Type} {related : First → Second → Prop}
    {turned : Second → First → Prop} {firsts : List First} {seconds : List Second}
    (relates : List.Forall₂ related firsts seconds)
    (symm : ∀ first ∈ firsts, ∀ second, related first second → turned second first) :
    List.Forall₂ turned seconds firsts := by
  induction relates with
  | nil => exact .nil
  | cons head tail induction =>
      rcases List.forall_mem_cons.mp symm with ⟨symmHead, symmTail⟩
      exact .cons (symmHead _ head) (induction symmTail)

theorem beq_symm [PartialEquivBEq α] (first : Value α) :
    ∀ second : Value α, first == second → second == first := by
  induction first using induction_on_components with
  | _ first ofComponents =>
      intro second equal
      apply Equal.beq
      cases equal_of_beq equal with
      | nil => exact .nil
      | bool truth => exact .bool truth
      | int number => exact .int number
      | float equal => exact .float (Number.Binary64.equals_comm _ _ ▸ equal)
      | string text => exact .string text
      | symbol name => exact .symbol name
      | list related => exact .list (forall₂_symm related ofComponents)
      | map related =>
          rcases List.forall_mem_append.mp ofComponents with ⟨ofKeys, ofContents⟩
          rw [List.forall_mem_map] at ofKeys ofContents
          exact .map (forall₂_symm related fun entry member _ equal =>
            ⟨ofKeys entry member _ equal.1, ofContents entry member _ equal.2⟩)
      | record tag related =>
          have ofContents := List.forall_mem_map.mp ofComponents
          exact .record tag (forall₂_symm related fun field member _ equal =>
            ⟨equal.1.symm, ofContents field member _ equal.2⟩)
      | rational fraction => exact .rational fraction
      | complex equal => exact .complex (Number.ComplexNumber.equals_comm _ _ ▸ equal)
      | foreign equal => exact .foreign (PartialEquivBEq.symm equal)

theorem beq_trans [PartialEquivBEq α] (first : Value α) :
    ∀ second third : Value α, first == second → second == third → first == third := by
  induction first using induction_on_components with
  | _ first ofComponents =>
      intro second third equal equalToo
      apply Equal.beq
      replace equalToo := equal_of_beq equalToo
      cases equal_of_beq equal with
      | nil => exact equalToo
      | bool truth => exact equalToo
      | int number => exact equalToo
      | float equal =>
          cases equalToo with
          | float equalToo => exact .float (Number.Binary64.equals_trans equal equalToo)
      | string text => exact equalToo
      | symbol name => exact equalToo
      | list related =>
          cases equalToo with
          | list relatedToo => exact .list (forall₂_trans related relatedToo ofComponents)
      | map related =>
          rcases List.forall_mem_append.mp ofComponents with ⟨ofKeys, ofContents⟩
          rw [List.forall_mem_map] at ofKeys ofContents
          cases equalToo with
          | map relatedToo =>
              refine .map (forall₂_trans related relatedToo ?_)
              intro entry member _ _ equal equalToo
              exact ⟨ofKeys entry member _ _ equal.1 equalToo.1,
                ofContents entry member _ _ equal.2 equalToo.2⟩
      | record tag related =>
          have ofContents := List.forall_mem_map.mp ofComponents
          cases equalToo with
          | record _ relatedToo =>
              refine .record tag (forall₂_trans related relatedToo ?_)
              intro field member _ _ equal equalToo
              exact ⟨equal.1.trans equalToo.1, ofContents field member _ _ equal.2 equalToo.2⟩
      | rational fraction => exact equalToo
      | complex equal =>
          cases equalToo with
          | complex equalToo => exact .complex (Number.ComplexNumber.equals_trans equal equalToo)
      | foreign equal =>
          cases equalToo with
          | foreign equalToo => exact .foreign (PartialEquivBEq.trans equal equalToo)

instance [PartialEquivBEq α] : PartialEquivBEq (Value α) where
  symm equal := beq_symm _ _ equal
  trans equal equalToo := beq_trans _ _ _ equal equalToo

/-! ## What is seen of a value -/

theorem find?_rel {Key : Type} (same : Key → Key → Prop) (wanted : Key → Bool)
    (alike : ∀ key key', same key key' → wanted key = wanted key')
    {firsts seconds : List (Key × Value α)}
    (related : List.Forall₂ (fun first second => same first.1 second.1 ∧ first.2 == second.2)
      firsts seconds) :
    Option.Rel (fun content content' => content == content')
      ((firsts.find? fun entry => wanted entry.1).map Prod.snd)
      ((seconds.find? fun entry => wanted entry.1).map Prod.snd) := by
  induction related with
  | nil => exact .none
  | @cons first second firsts seconds head tail induction =>
      rw [List.find?_cons, List.find?_cons, alike _ _ head.1]
      cases wanted second.1 with
      | true => exact .some head.2
      | false => exact induction

variable {first second : Value α} (equal : first == second)
include equal

theorem kind_eq_of_beq : first.kind = second.kind := by
  cases equal_of_beq equal <;> rfl

theorem accepts_eq_of_beq (kind : Kind) : kind.accepts first = kind.accepts second := by
  simp only [Kind.accepts, kind_eq_of_beq equal]

theorem text?_eq_of_beq : first.text? = second.text? := by
  cases equal_of_beq equal <;> rfl

theorem items?_rel : Option.Rel (List.Forall₂ fun item item' => item == item')
    first.items? second.items? := by
  cases equal_of_beq equal with
  | list related => exact .some related
  | _ => exact .none

theorem get?_rel [PartialEquivBEq α] (key : Value α) :
    Option.Rel (fun content content' => content == content') (first.get? key)
      (second.get? key) := by
  cases equal_of_beq equal with
  | map related => exact find?_rel (· == ·) (· == key) (fun _ _ same => BEq.congr_left same) related
  | _ => exact .none

end

end Value

theorem mapM_rel {Key Result Result' : Type} {related : Result → Result' → Prop}
    {find : Key → Option Result} {find' : Key → Option Result'}
    (alike : ∀ key, Option.Rel related (find key) (find' key)) (keys : List Key) :
    Option.Rel (List.Forall₂ related) (keys.mapM find) (keys.mapM find') := by
  induction keys with
  | nil => exact .some .nil
  | cons key keys induction =>
      have here := alike key
      rw [List.mapM_cons, List.mapM_cons]
      generalize find key = found, find' key = found' at here ⊢
      generalize keys.mapM find = others, keys.mapM find' = others' at induction ⊢
      cases here with
      | none => exact .none
      | some here =>
          cases induction with
          | none => exact .none
          | some later => exact .some (.cons here later)

namespace KeyedShape

variable [BEq α]

/-- Under the same keys, equal values hold equal contents. -/
theorem lookup?_rel [PartialEquivBEq α] (shape : KeyedShape) (keys : List (Value α))
    {first second : Value α} (equal : first == second) :
    Option.Rel (List.Forall₂ fun content content' => content == content')
      (shape.lookup? keys first) (shape.lookup? keys second) := by
  cases Value.equal_of_beq equal with
  | map related =>
      cases shape with
      | map => exact mapM_rel (fun key => Value.get?_rel equal key) keys
      | record tag => exact .none
  | record tag' related =>
      cases shape with
      | map => exact .none
      | record tag =>
          unfold lookup?
          dsimp only
          split
          · refine mapM_rel (fun key => ?_) keys
            cases key.text? with
            | none => exact .none
            | some name =>
                exact Value.find?_rel (· = ·) (· == name) (fun _ _ same => same ▸ rfl) related
          · exact .none
  | _ => cases shape <;> exact .none

end KeyedShape

end Destructure
