import Destructure.Proofs.Matching.Ways

/-!
Where bound values come from. What a pattern binds is the value, something that was taken out of it,
or a list of what a repeated unit binds; only the parts of numbers and of texts are made anew. So a
property that passes from values to their contents, and back to lists of them, holds of everything
that is bound.

Main statement: `Pattern.forall_mem_solutions`.
-/

namespace Destructure

variable {α : Type} {holds : Value α → Prop}

namespace Value

structure Inherited (holds : Value α → Prop) : Prop where
  nil : holds .nil
  int (number : Int64) : holds (.int number)
  float (number : Number.Binary64) : holds (.float number)
  string (text : String) : holds (.string text)
  list {items : List (Value α)} : holds (.list items) ↔ ∀ item ∈ items, holds item
  map {entries : List (Value α × Value α)} : holds (.map entries) →
    ∀ entry ∈ entries, holds entry.2
  record {tag : String} {fields : List (String × Value α)} : holds (.record tag fields) →
    ∀ field ∈ fields, holds field.2

end Value

/-! ## Parts -/

theorem exists_of_mem_mapM {Key Result : Type} {find : Key → Option Result} {keys : List Key}
    {results : List Result} (found : keys.mapM find = some results) :
    ∀ result ∈ results, ∃ key ∈ keys, find key = some result := by
  induction keys generalizing results with
  | nil =>
      cases found
      exact List.forall_mem_nil _
  | cons key keys induction =>
      rw [List.mapM_cons] at found
      obtain ⟨first, here, found⟩ := Option.bind_eq_some_iff.mp found
      obtain ⟨others, behind, same⟩ := Option.bind_eq_some_iff.mp found
      cases same
      refine List.forall_mem_cons.mpr ⟨⟨key, List.mem_cons_self, here⟩, ?_⟩
      intro result member
      obtain ⟨later, among, isResult⟩ := induction behind result member
      exact ⟨later, List.mem_cons_of_mem _ among, isResult⟩

def Decomposer.Keeps (holds : Value α → Prop) (decomposer : Decomposer α) : Prop :=
  ∀ value parts, holds value → decomposer value = some parts → ∀ part ∈ parts, holds part

namespace Value.Inherited

variable (inherited : Value.Inherited holds)
include inherited

theorem keeps_list : Decomposer.list.Keeps holds := by
  intro value parts whole decomposed
  cases value with
  | list items =>
      cases decomposed
      exact inherited.list.mp whole
  | _ => cases decomposed

theorem keeps_rational : Decomposer.rational.Keeps holds := by
  intro value parts whole decomposed
  cases value with
  | rational fraction =>
      cases decomposed
      exact List.forall_mem_cons.mpr ⟨inherited.int _, List.forall_mem_singleton.mpr
        (inherited.int _)⟩
  | _ => cases decomposed

theorem keeps_complex : Decomposer.complex.Keeps holds := by
  intro value parts whole decomposed
  cases value with
  | complex number =>
      cases decomposed
      exact List.forall_mem_cons.mpr ⟨inherited.float _, List.forall_mem_singleton.mpr
        (inherited.float _)⟩
  | _ => cases decomposed

theorem keeps_record (tag : String) : (Decomposer.record tag).Keeps holds := by
  intro value parts whole decomposed
  cases value with
  | record tag' fields =>
      obtain ⟨-, same⟩ := Option.ite_none_right_eq_some.mp decomposed
      cases same
      exact List.forall_mem_map.mpr (inherited.record whole)
  | _ => cases decomposed

theorem keeps_regex (expression : Regex) : (Decomposer.regex expression).Keeps holds := by
  intro value parts whole decomposed
  obtain ⟨text, -, decomposed⟩ := Option.bind_eq_some_iff.mp decomposed
  obtain ⟨groups, -, decomposed⟩ := Option.bind_eq_some_iff.mp decomposed
  cases decomposed
  intro part member
  obtain ⟨group, -, rfl⟩ := List.mem_map.mp member
  cases group with
  | none => exact inherited.nil
  | some text => exact inherited.string text

theorem keeps_records (tags : List String) :
    (tags.foldl Registry.registerRecord Registry.standard).All (Decomposer.Keeps holds) :=
  (Registry.All.standard inherited.keeps_list inherited.keeps_rational
    inherited.keeps_complex).records inherited.keeps_record tags

theorem lookup? [BEq α] (shape : KeyedShape) {keys : List (Value α)} {value : Value α}
    (whole : holds value) {parts : List (Value α)} (found : shape.lookup? keys value = some parts) :
    ∀ part ∈ parts, holds part := by
  unfold KeyedShape.lookup? at found
  split at found
  next entries =>
    intro part member
    obtain ⟨key, -, underKey⟩ := exists_of_mem_mapM found part member
    obtain ⟨entry, isEntry, rfl⟩ := Option.map_eq_some_iff.mp underKey
    exact inherited.map whole entry (List.mem_of_find?_eq_some isEntry)
  next tag tag' fields =>
    obtain ⟨-, found⟩ := Option.ite_none_right_eq_some.mp found
    intro part member
    obtain ⟨key, -, underKey⟩ := exists_of_mem_mapM found part member
    obtain ⟨name, -, underName⟩ := Option.bind_eq_some_iff.mp underKey
    obtain ⟨field, isField, rfl⟩ := Option.map_eq_some_iff.mp underName
    exact inherited.record whole field (List.mem_of_find?_eq_some isField)
  next => cases found

end Value.Inherited

/-! ## Ways -/

namespace Named

def All {β : Type} (property : β → Prop) (pairs : Named β) : Prop := ∀ pair ∈ pairs, property pair.2

end Named

namespace Way

structure All (property : Value α → Prop) (way : Way α) : Prop where
  bound : Named.All property way.bound
  left : ∀ value ∈ way.left, property value

def Keeps (holds : Value α → Prop) (onward : Way α → List (Way α)) : Prop :=
  ∀ way, way.All holds → ∀ later ∈ onward way, later.All holds

def KeepsItem (holds : Value α → Prop)
    (item : Value α → Named (Value α) → List (Named (Value α))) : Prop :=
  ∀ value bound, holds value → Named.All holds bound →
    ∀ later ∈ item value bound, Named.All holds later

variable {onward next unit : Way α → List (Way α)}

theorem Keeps.flatMap (keeps : Keeps holds onward) (keepsNext : Keeps holds next) :
    Keeps holds fun way => (onward way).flatMap next := by
  intro way all later member
  obtain ⟨between, reached, onward⟩ := List.mem_flatMap.mp member
  exact keepsNext between (keeps way all between reached) later onward

theorem KeepsItem.single {item : Value α → Named (Value α) → List (Named (Value α))}
    (keeps : KeepsItem holds item) : Keeps holds (Way.single item) := by
  rintro ⟨bound, left⟩ all later member
  cases left with
  | nil => cases member
  | cons value left =>
      obtain ⟨here, behind⟩ := List.forall_mem_cons.mp all.left
      obtain ⟨bound', reached, rfl⟩ := List.mem_map.mp member
      exact ⟨keeps value bound here all.bound bound' reached, behind⟩

theorem forall_mem_complete {ways : List (Way α)} (all : ∀ way ∈ ways, way.All holds) :
    ∀ bound ∈ complete ways, Named.All holds bound := by
  intro bound member
  obtain ⟨way, among, rfl⟩ := List.mem_map.mp member
  exact (all way (List.mem_filter.mp among).1).bound

theorem Keeps.passes (keeps : Keeps holds unit) (count : Nat) {values : List (Value α)}
    (all : ∀ value ∈ values, holds value) :
    ∀ passed ∈ passes unit count values,
      (∀ bound ∈ passed.1, Named.All holds bound) ∧ ∀ value ∈ passed.2, holds value := by
  induction count generalizing values with
  | zero => exact List.forall_mem_singleton.mpr ⟨List.forall_mem_nil _, all⟩
  | succ count induction =>
      intro passed member
      obtain ⟨way, reached, rest⟩ := List.mem_flatMap.mp member
      obtain ⟨others, among, rfl⟩ := List.mem_map.mp rest
      have first := keeps ⟨[], values⟩ ⟨List.forall_mem_nil _, all⟩ way reached
      obtain ⟨bound, left⟩ := induction first.left others among
      exact ⟨List.forall_mem_cons.mpr ⟨first.bound, bound⟩, left⟩

variable (inherited : Value.Inherited holds)
include inherited

theorem all_gather (names : List String) {passes : List (Named (Value α))}
    (all : ∀ bound ∈ passes, Named.All holds bound) : Named.All holds (gather names passes) := by
  induction names generalizing passes with
  | nil => exact List.forall_mem_nil _
  | cons name names induction =>
      have firsts : ∀ value ∈ passes.filterMap fun bound => bound.head?.map Prod.snd,
          holds value := by
        intro value member
        obtain ⟨bound, among, first⟩ := List.mem_filterMap.mp member
        obtain ⟨pair, isFirst, rfl⟩ := Option.map_eq_some_iff.mp first
        exact all bound among pair (List.mem_of_mem_head? isFirst)
      have rests : ∀ rest ∈ passes.map List.tail, Named.All holds rest := by
        intro rest member
        obtain ⟨bound, among, rfl⟩ := List.mem_map.mp member
        intro pair inside
        exact all bound among pair (List.mem_of_mem_tail inside)
      exact List.forall_mem_cons.mpr ⟨inherited.list.mpr firsts, induction rests⟩

theorem Keeps.repeatedFrom (keeps : Keeps holds unit) (names : List String) (greed : Greed)
    (minimum : Nat) : Keeps holds (repeatedFrom names unit greed minimum) := by
  intro way all later member
  obtain ⟨count, -, repeated⟩ := List.mem_flatMap.mp member
  obtain ⟨passed, among, rfl⟩ := List.mem_map.mp repeated
  obtain ⟨bound, left⟩ := keeps.passes count all.left passed among
  exact ⟨List.forall_mem_append.mpr ⟨all.bound, all_gather inherited names bound⟩, left⟩

end Way

/-! ## Patterns -/

namespace Pattern

variable [BEq α] {registry : Registry α} {greed : Greed}

theorem keepsItem_allWays {operands : List (Pattern α)}
    (keeps : ∀ operand ∈ operands, Way.KeepsItem holds (operand.itemWays registry greed)) :
    Way.KeepsItem holds (allWays registry greed operands) := by
  induction operands with
  | nil =>
      intro value bound whole all
      exact List.forall_mem_singleton.mpr all
  | cons operand operands induction =>
      obtain ⟨here, behind⟩ := List.forall_mem_cons.mp keeps
      intro value bound whole all later member
      obtain ⟨between, reached, onward⟩ := List.mem_flatMap.mp member
      exact induction behind value between whole (here value bound whole all between reached) later
        onward

theorem forall_mem_entryWays {entries : List (Value α × Pattern α)}
    (keeps : ∀ item ∈ entries.map Prod.snd, Way.KeepsItem holds (item.itemWays registry greed))
    {values : List (Value α)} (wholes : ∀ value ∈ values, holds value) {bound : Named (Value α)}
    (all : Named.All holds bound) :
    ∀ later ∈ entryWays registry greed entries values bound, Named.All holds later := by
  induction entries generalizing values bound with
  | nil =>
      cases values with
      | nil => exact List.forall_mem_singleton.mpr all
      | cons value values => exact List.forall_mem_nil _
  | cons entry entries induction =>
      obtain ⟨here, behind⟩ := List.forall_mem_cons.mp keeps
      cases values with
      | nil => exact List.forall_mem_nil _
      | cons value values =>
          obtain ⟨whole, others⟩ := List.forall_mem_cons.mp wholes
          intro later member
          obtain ⟨between, reached, onward⟩ := List.mem_flatMap.mp member
          exact induction behind others (here value bound whole all between reached) later onward

variable (inherited : Value.Inherited holds) (known : registry.All (Decomposer.Keeps holds))
include inherited known

theorem keepsItem_of_parts {pattern : Pattern α}
    (ofParts : ∀ part ∈ pattern.parts, Way.KeepsItem holds (part.itemWays registry greed))
    (ofRow : Way.Keeps holds (rowWays registry greed pattern.parts)) :
    Way.KeepsItem holds (pattern.itemWays registry greed) := by
  intro value bound whole all later member
  -- A test lets the way go on as it is, or not at all.
  have unchanged {accepted : Bool} (member : later ∈ if accepted then [bound] else []) :
      Named.All holds later := by
    cases accepted with
    | false => cases member
    | true => exact List.mem_singleton.mp member ▸ all
  cases pattern with
  | literal expected => exact unchanged member
  | compared expected accepts => exact unchanged member
  | kind expected => exact unchanged member
  | wildcard => exact List.mem_singleton.mp member ▸ all
  | bind name =>
      rw [List.mem_singleton.mp member]
      exact List.forall_mem_append.mpr ⟨all, List.forall_mem_singleton.mpr whole⟩
  | deconstruct shape items =>
      rw [itemWays, Registry.decompose] at member
      cases resolved : registry.resolve shape with
      | error error =>
          rw [resolved] at member
          cases member
      | ok decomposer =>
          have keeps := known.resolve inherited.keeps_record inherited.keeps_regex resolved
          rw [resolved, Except.map] at member
          cases decomposed : decomposer value with
          | none =>
              rw [decomposed] at member
              cases member
          | some parts =>
              rw [decomposed] at member
              have start : (⟨bound, parts⟩ : Way α).All holds :=
                ⟨all, keeps value parts whole decomposed⟩
              exact Way.forall_mem_complete (ofRow _ start) later member
  | keyed shape entries =>
      rw [itemWays] at member
      split at member
      next parts found =>
        exact forall_mem_entryWays ofParts (inherited.lookup? shape whole found) all later member
      next => cases member
  | and operands => exact keepsItem_allWays ofParts value bound whole all later member
  | or operands => exact unchanged member
  | not operands =>
      rw [itemWays] at member
      split at member
      next => cases member
      next => exact List.mem_singleton.mp member ▸ all
  | sequence items => cases member
  | repetition minimum greed => cases member
  | condition accepts => cases member

theorem keeps_ways (greed : Greed) : Inductive (α := α)
    (fun pattern => Way.KeepsItem holds (pattern.itemWays registry greed) ∧
      Way.Keeps holds (pattern.unitWays registry greed))
    (fun items => Way.Keeps holds (rowWays registry greed items)) where
  whole pattern ofParts ofRow := by
    have ofValues := keepsItem_of_parts inherited known
      (fun part member => (ofParts part member).1) ofRow
    refine ⟨ofValues, ?_⟩
    cases pattern with
    | sequence items => exact ofRow
    | _ => exact ofValues.single
  nil way all := List.forall_mem_singleton.mpr all
  repeated unit minimum order items ofUnit ofItems := by
    rw [rowWays_repeatedFrom]
    exact (ofUnit.2.repeatedFrom inherited _ _ _).flatMap ofItems
  plain item items leads ofItem ofItems := by
    cases plain : item.isCondition with
    | false =>
        rw [funext (rowWays_unit registry greed plain leads)]
        exact ofItem.2.flatMap ofItems
    | true =>
        cases item with
        | condition accepts =>
            intro way all later member
            rw [rowWays_plain registry greed leads] at member
            dsimp only at member
            split at member
            · exact ofItems way all later member
            · cases member
        | _ => cases plain

/-- What a pattern binds has every property that the value has and that is inherited. -/
theorem forall_mem_solutions (pattern : Pattern α) (options : Options) {value : Value α}
    (whole : holds value) :
    ∀ bindings ∈ pattern.solutions registry options value, ∀ pair ∈ bindings.pairs,
      holds pair.2 := by
  have row := (keeps_ways inherited known options.defaultGreed).row [pattern]
  have ways := Way.forall_mem_complete
    (row ⟨[], [value]⟩ ⟨List.forall_mem_nil _, List.forall_mem_singleton.mpr whole⟩)
  intro bindings member pair inside
  obtain ⟨bound, among, rfl⟩ := List.mem_map.mp member
  exact ways bound (List.mem_filter.mp among).1 pair (Named.mem_of_mem_firsts inside)

end Pattern

end Destructure
