import Destructure.Matching.Search
import Destructure.Proofs.Pattern.Names
import Destructure.Proofs.Pattern.Placement
import Mathlib.Data.List.Nodup

/-!
What compilation makes of a pattern. The tables go by node number; here each entry is tied to the
node itself: a variable records below as many repetitions as stand around it, and a repetition
starts the lists of exactly those variables that its unit contains.
-/

namespace Destructure

variable {α : Type}

open Outline (Compositional binders bindersOfRow leadingRepetition?)
open Outline (Binder)

namespace Outline

def surrounding? (ordered : Bool) (behind : List (Outline α)) : Option Nat :=
  if ordered then leadingRepetition? behind else none

theorem bindersOfRow_eq (ordered : Bool) (repetitions : List Nat) (outline : Outline α)
    (outlines : List (Outline α)) :
    bindersOfRow ordered repetitions (outline :: outlines) =
      binders (repetitions ++ (surrounding? ordered outlines).toList) outline ++
        bindersOfRow ordered repetitions outlines := by
  rw [bindersOfRow_cons, surrounding?]
  cases ordered <;> rfl

theorem ids_of_surrounding? {ordered : Bool} {behind : List (Outline α)} {repetition : Nat}
    (around : surrounding? ordered behind = some repetition) :
    ∃ others, (behind.flatMap preorder).map id = repetition :: others := by
  cases ordered with
  | false => cases around
  | true =>
      rcases leadingRepetition?_eq_some around with ⟨minimum, greed, parts, items, rfl⟩
      rw [List.flatMap_cons, preorder_node]
      exact ⟨_, rfl⟩

theorem mem_ids_of_surrounding? {ordered : Bool} {behind : List (Outline α)} {repetition : Nat}
    (around : surrounding? ordered behind = some repetition) :
    repetition ∈ (behind.flatMap preorder).map id := by
  rcases ids_of_surrounding? around with ⟨others, ids⟩
  rw [ids]
  exact List.mem_cons_self

theorem ids_preorder_ne_nil (outline : Outline α) : outline.preorder.map id ≠ [] := by
  rcases outline with ⟨id, kind, children⟩
  rw [preorder_node]
  exact List.cons_ne_nil _ _

/-- A binder lies in its outline, and so do the repetitions around it there, behind the first
node. -/
theorem of_mem_binders : Compositional (α := α)
    (fun outline => ∀ repetitions, ∀ binder ∈ binders repetitions outline,
      binder.id ∈ outline.preorder.map id ∧ ∃ inner, binder.repetitions = repetitions ++ inner ∧
        ∀ repetition ∈ inner, repetition ∈ (outline.preorder.map id).tail)
    (fun outlines => ∀ ordered repetitions, ∀ binder ∈ bindersOfRow ordered repetitions outlines,
      binder.id ∈ (outlines.flatMap preorder).map id ∧
        ∃ inner, binder.repetitions = repetitions ++ inner ∧
          ∀ repetition ∈ inner, repetition ∈ ((outlines.flatMap preorder).map id).tail) where
  node id kind children ofChildren repetitions binder member := by
    rw [binders_node] at member
    rw [preorder_node, List.map_cons, List.tail_cons]
    rcases List.mem_append.mp member with here | below
    · rcases List.mem_map.mp here with ⟨place, isPlace, rfl⟩
      rcases Option.map_eq_some_iff.mp (Option.mem_toList.mp isPlace) with ⟨name, -, rfl⟩
      exact ⟨List.mem_cons_self, [], (List.append_nil _).symm, List.forall_mem_nil _⟩
    · rcases ofChildren _ repetitions binder below with ⟨inside, inner, equal, innerInside⟩
      exact ⟨List.mem_cons_of_mem _ inside, inner, equal,
        fun repetition among => List.mem_of_mem_tail (innerInside repetition among)⟩
  nil ordered repetitions binder member := nomatch member
  cons item items ofItem ofItems ordered repetitions binder member := by
    rw [bindersOfRow_eq] at member
    rw [List.flatMap_cons, List.map_append, List.tail_append_of_ne_nil (ids_preorder_ne_nil item)]
    rcases List.mem_append.mp member with here | later
    · rcases ofItem _ binder here with ⟨inside, inner, equal, innerInside⟩
      refine ⟨List.mem_append_left _ inside, (surrounding? ordered items).toList ++ inner, ?_, ?_⟩
      · rw [equal, List.append_assoc]
      · intro repetition among
        rcases List.mem_append.mp among with around | below
        · exact List.mem_append_right _ (mem_ids_of_surrounding? (Option.mem_toList.mp around))
        · exact List.mem_append_left _ (innerInside repetition below)
    · rcases ofItems ordered repetitions binder later with ⟨inside, inner, equal, innerInside⟩
      exact ⟨List.mem_append_right _ inside, inner, equal, fun repetition among =>
        List.mem_append_right _ (List.mem_of_mem_tail (innerInside repetition among))⟩

end Outline

namespace Matcher

open Outline (surrounding?)

mutual
def Fits (matcher : Matcher α) (registry : Registry α) (depth : Nat) : Outline α → Prop
  | .node id kind children =>
    (∀ name, kind = .bind name → matcher.depth id = depth) ∧
      (∀ shape, kind = .deconstruct shape → ∃ decomposer, registry.resolve shape = .ok decomposer ∧
        matcher.decomposer? id = some decomposer) ∧
      FitsRow matcher registry depth kind.isOrdered children

def FitsRow (matcher : Matcher α) (registry : Registry α) (depth : Nat) (ordered : Bool) :
    List (Outline α) → Prop
  | [] => True
  | item :: items =>
    (match surrounding? ordered items with
      | some repetition =>
        matcher.openers.getD repetition [] = item.places.map (fun place => (place.2, depth)) ∧
          Fits matcher registry (depth + 1) item
      | none => Fits matcher registry depth item) ∧
      FitsRow matcher registry depth ordered items
end

structure Tabulates (matcher : Matcher α) (registry : Registry α) (all : List Binder)
    (nodes : List (Outline α)) : Prop where
  depth : ∀ node ∈ nodes, matcher.depth node.id = depthOf all node.id
  openers : ∀ node ∈ nodes, matcher.openers.getD node.id [] = openedBy all node.id
  decomposer : ∀ node ∈ nodes, ∀ shape, node.kind = .deconstruct shape →
    ∃ decomposer, registry.resolve shape = .ok decomposer ∧
      matcher.decomposer? node.id = some decomposer

theorem Tabulates.subset {matcher : Matcher α} {registry : Registry α} {all : List Binder}
    {nodes others : List (Outline α)} (tabulates : matcher.Tabulates registry all nodes)
    (subset : others ⊆ nodes) : matcher.Tabulates registry all others where
  depth node member := tabulates.depth node (subset member)
  openers node member := tabulates.openers node (subset member)
  decomposer node member := tabulates.decomposer node (subset member)

/-- Binders elsewhere: they have numbers of their own, and none of the repetitions behind the first
of the numbers stands around them. -/
def Apart (ids : List Nat) (others : List Binder) : Prop :=
  ∀ binder ∈ others, binder.id ∉ ids ∧ ∀ repetition ∈ binder.repetitions, repetition ∉ ids.tail

theorem Apart.of_cons {id : Nat} {ids : List Nat} {others : List Binder}
    (apart : Apart (id :: ids) others) : Apart ids others := by
  intro binder member
  rcases apart binder member with ⟨outside, above⟩
  exact ⟨fun inside => outside (List.mem_cons_of_mem _ inside),
    fun repetition among inside => above repetition among (List.mem_of_mem_tail inside)⟩

theorem Apart.left {ids ids' : List Nat} {others : List Binder} (nonempty : ids ≠ [])
    (apart : Apart (ids ++ ids') others) : Apart ids others := by
  intro binder member
  rcases apart binder member with ⟨outside, above⟩
  rw [List.tail_append_of_ne_nil nonempty] at above
  exact ⟨fun inside => outside (List.mem_append_left _ inside),
    fun repetition among inside => above repetition among (List.mem_append_left _ inside)⟩

theorem Apart.right {ids ids' : List Nat} {others : List Binder} (nonempty : ids ≠ [])
    (apart : Apart (ids ++ ids') others) : Apart ids' others := by
  intro binder member
  rcases apart binder member with ⟨outside, above⟩
  rw [List.tail_append_of_ne_nil nonempty] at above
  exact ⟨fun inside => outside (List.mem_append_right _ inside), fun repetition among inside =>
    above repetition among (List.mem_append_right _ (List.mem_of_mem_tail inside))⟩

theorem Apart.append {ids : List Nat} {others others' : List Binder} (apart : Apart ids others)
    (apart' : Apart ids others') : Apart ids (others ++ others') := by
  intro binder member
  rcases List.mem_append.mp member with here | later
  · exact apart binder here
  · exact apart' binder later

theorem depthOf_append {ids : List Nat} {others : List Binder} (apart : Apart ids others)
    (binders : List Binder) {id : Nat} (member : id ∈ ids) :
    depthOf (others ++ binders) id = depthOf binders id := by
  have absent : others.find? (fun binder => binder.id == id) = none := by
    apply List.find?_eq_none.mpr
    intro binder other same
    exact (apart binder other).1 (beq_iff_eq.mp same ▸ member)
  rw [depthOf, depthOf, List.find?_append, absent, Option.none_or]

theorem openedBy_eq_nil {others : List Binder} {repetition : Nat}
    (absent : ∀ binder ∈ others, repetition ∉ binder.repetitions) :
    openedBy others repetition = [] := by
  apply List.filterMap_eq_nil_iff.mpr
  intro binder member
  rw [List.idxOf?_eq_none_iff.mpr (absent binder member), Option.map_none]

/-- A repetition starts the lists of the variables of its unit, one level for all of them. -/
theorem openedBy_binders {repetitions : List Nat} {repetition : Nat}
    (fresh : repetition ∉ repetitions) (unit : Outline α) :
    openedBy (binders (repetitions ++ [repetition]) unit) repetition =
      unit.places.map fun place => (place.2, repetitions.length) := by
  have level : ∀ binder ∈ binders (repetitions ++ [repetition]) unit,
      (binder.repetitions.idxOf? repetition).map (fun level => (binder.id, level)) =
        some (binder.id, repetitions.length) := by
    intro binder member
    rcases Outline.of_mem_binders.item unit _ binder member with ⟨-, inner, equal, -⟩
    have absent : repetitions.findIdx? (· == repetition) = none :=
      List.idxOf?_eq_none_iff.mpr fresh
    rw [equal, List.idxOf?, List.append_assoc, List.findIdx?_append, absent]
    simp [List.findIdx?_cons]
  rw [openedBy, List.filterMap_eq_map_iff_forall_eq_some.mpr level,
    ← Outline.places_of_binders.item unit, List.map_map]
  rfl

/-- Binders that lie among nodes with other numbers are apart. -/
theorem apart_of_inside {ids own repetitions : List Nat} {others : List Binder}
    (inside : ∀ binder ∈ others, binder.id ∈ own ∧
      ∃ inner, binder.repetitions = repetitions ++ inner ∧
        ∀ repetition ∈ inner, repetition ∈ own.tail)
    (disjoint : ∀ id ∈ ids, id ∉ own) (above : ∀ repetition ∈ repetitions, repetition ∉ ids.tail) :
    Apart ids others := by
  intro binder member
  rcases inside binder member with ⟨among, inner, equal, innerInside⟩
  refine ⟨fun here => disjoint _ here among, ?_⟩
  rw [equal]
  intro repetition present here
  rcases List.mem_append.mp present with outer | below
  · exact above repetition outer here
  · exact disjoint _ (List.mem_of_mem_tail here) (List.mem_of_mem_tail (innerInside _ below))

theorem openedBy_bindersOfRow {ordered : Bool} {repetitions : List Nat} {repetition : Nat}
    {outlines : List (Outline α)} (around : surrounding? ordered outlines = some repetition)
    (nodup : ((outlines.flatMap Outline.preorder).map Outline.id).Nodup)
    (fresh : repetition ∉ repetitions) :
    openedBy (bindersOfRow ordered repetitions outlines) repetition = [] := by
  apply openedBy_eq_nil
  intro binder member among
  obtain ⟨-, inner, equal, innerInside⟩ :=
    Outline.of_mem_binders.row outlines ordered repetitions binder member
  rcases Outline.ids_of_surrounding? around with ⟨others, ids⟩
  rw [ids] at nodup innerInside
  rcases List.mem_append.mp (equal ▸ among) with outer | below
  · exact fresh outer
  · exact (List.nodup_cons.mp nodup).1 (innerInside repetition below)

/-- Nodes stand below these repetitions, and their own binders stand among all of them between
earlier and later ones. The tables have the entries of the nodes. -/
structure Stands (matcher : Matcher α) (registry : Registry α) (all : List Binder)
    (nodes : List (Outline α)) (repetitions : List Nat) (own earlier later : List Binder) :
    Prop where
  split : all = earlier ++ (own ++ later)
  nodup : (nodes.map Outline.id).Nodup
  before : Apart (nodes.map Outline.id) earlier
  behind : Apart (nodes.map Outline.id) later
  above : ∀ repetition ∈ repetitions, repetition ∉ (nodes.map Outline.id).tail
  tabulates : matcher.Tabulates registry all nodes

namespace Stands

variable {matcher : Matcher α} {registry : Registry α} {all earlier later : List Binder}
variable {repetitions : List Nat} {ordered : Bool}

theorem depth {id : Nat} {name : String} {children : List (Outline α)}
    (stands : matcher.Stands registry all (Outline.node id (.bind name) children).preorder
      repetitions (binders repetitions (.node id (.bind name) children)) earlier later) :
    matcher.depth id = repetitions.length := by
  have depth := stands.tabulates.depth (.node id (.bind name) children)
    (by rw [Outline.preorder_node]; exact List.mem_cons_self)
  have before := stands.before
  rw [Outline.preorder_node, List.map_cons] at before
  rw [stands.split, depthOf_append before _ List.mem_cons_self, Outline.binders_node] at depth
  simpa [Outline.place?, Outline.kind, NodeKind.boundName?, Outline.id, depthOf] using depth

theorem children {id : Nat} {kind : NodeKind α} {children : List (Outline α)}
    (stands : matcher.Stands registry all (Outline.node id kind children).preorder repetitions
      (binders repetitions (.node id kind children)) earlier later) :
    matcher.Stands registry all (children.flatMap Outline.preorder) repetitions
      (bindersOfRow kind.isOrdered repetitions children)
      (earlier ++ (Outline.place? (.node id kind children)).toList.map
        fun place => ⟨place.2, place.1, repetitions⟩) later := by
  rcases stands with ⟨split, nodup, before, behind, above, tabulates⟩
  rw [Outline.preorder_node, List.map_cons] at nodup before behind above
  rw [Outline.binders_node, List.append_assoc, ← List.append_assoc] at split
  rw [Outline.preorder_node] at tabulates
  rcases List.nodup_cons.mp nodup with ⟨fresh, distinct⟩
  have aboveChildren : ∀ repetition ∈ repetitions,
      repetition ∉ ((children.flatMap Outline.preorder).map Outline.id).tail :=
    fun repetition among inside => above repetition among (List.mem_of_mem_tail inside)
  refine ⟨split, distinct, ?_, behind.of_cons, aboveChildren, ?_⟩
  · apply before.of_cons.append
    intro binder member
    rcases List.mem_map.mp member with ⟨place, isPlace, rfl⟩
    rcases Option.map_eq_some_iff.mp (Option.mem_toList.mp isPlace) with ⟨name, -, rfl⟩
    exact ⟨fresh, aboveChildren⟩
  · exact tabulates.subset (List.subset_cons_self _ _)

variable {item : Outline α} {items : List (Outline α)}

theorem aboveItems (stands : matcher.Stands registry all ((item :: items).flatMap Outline.preorder)
      repetitions (bindersOfRow ordered repetitions (item :: items)) earlier later) :
    ∀ repetition ∈ repetitions, repetition ∉ (items.flatMap Outline.preorder).map Outline.id := by
  intro repetition among inside
  apply stands.above repetition among
  rw [List.flatMap_cons, List.map_append,
    List.tail_append_of_ne_nil (Outline.ids_preorder_ne_nil item)]
  exact List.mem_append_right _ inside

theorem head (stands : matcher.Stands registry all ((item :: items).flatMap Outline.preorder)
      repetitions (bindersOfRow ordered repetitions (item :: items)) earlier later) :
    matcher.Stands registry all item.preorder
      (repetitions ++ (surrounding? ordered items).toList)
      (binders (repetitions ++ (surrounding? ordered items).toList) item) earlier
      (bindersOfRow ordered repetitions items ++ later) := by
  have nonempty := Outline.ids_preorder_ne_nil item
  rcases stands with ⟨split, nodup, before, behind, above, tabulates⟩
  rw [List.flatMap_cons, List.map_append] at nodup before behind above
  rw [Outline.bindersOfRow_eq, List.append_assoc] at split
  rw [List.flatMap_cons] at tabulates
  rw [List.tail_append_of_ne_nil nonempty] at above
  rcases List.nodup_append'.mp nodup with ⟨nodupItem, -, disjoint⟩
  have aboveItem : ∀ repetition ∈ repetitions,
      repetition ∉ (item.preorder.map Outline.id).tail :=
    fun repetition among inside => above repetition among (List.mem_append_left _ inside)
  refine ⟨split, nodupItem, before.left nonempty, ?_, ?_, ?_⟩
  · apply Apart.append _ (behind.left nonempty)
    exact apart_of_inside (Outline.of_mem_binders.row items ordered repetitions)
      (fun id here => disjoint here) aboveItem
  · intro repetition among here
    rcases List.mem_append.mp among with outer | around
    · exact aboveItem repetition outer here
    · exact disjoint (List.mem_of_mem_tail here)
        (Outline.mem_ids_of_surrounding? (Option.mem_toList.mp around))
  · exact tabulates.subset (List.subset_append_left _ _)

theorem tail (stands : matcher.Stands registry all ((item :: items).flatMap Outline.preorder)
      repetitions (bindersOfRow ordered repetitions (item :: items)) earlier later) :
    matcher.Stands registry all (items.flatMap Outline.preorder) repetitions
      (bindersOfRow ordered repetitions items)
      (earlier ++ binders (repetitions ++ (surrounding? ordered items).toList) item) later := by
  have nonempty := Outline.ids_preorder_ne_nil item
  have aboveItems := stands.aboveItems
  rcases stands with ⟨split, nodup, before, behind, -, tabulates⟩
  rw [List.flatMap_cons, List.map_append] at nodup before behind
  rw [Outline.bindersOfRow_eq] at split
  rw [List.flatMap_cons] at tabulates
  rcases List.nodup_append'.mp nodup with ⟨-, nodupItems, disjoint⟩
  refine ⟨?_, nodupItems, ?_, behind.right nonempty, ?_, ?_⟩
  · rw [split, List.append_assoc, List.append_assoc]
  · apply (before.right nonempty).append
    apply apart_of_inside (Outline.of_mem_binders.item item _)
      (fun id here inside => disjoint inside here)
    intro repetition among here
    rcases List.mem_append.mp among with outer | around
    · exact aboveItems repetition outer (List.mem_of_mem_tail here)
    · rcases Outline.ids_of_surrounding? (Option.mem_toList.mp around) with ⟨others, ids⟩
      rw [ids] at here nodupItems
      exact (List.nodup_cons.mp nodupItems).1 here
  · exact fun repetition among here => aboveItems repetition among (List.mem_of_mem_tail here)
  · exact tabulates.subset (List.subset_append_right _ _)

/-- A repetition behind an item starts the lists of the variables in the item, and no others. -/
theorem openers {repetition : Nat} (around : surrounding? ordered items = some repetition)
    (stands : matcher.Stands registry all ((item :: items).flatMap Outline.preorder)
      repetitions (bindersOfRow ordered repetitions (item :: items)) earlier later) :
    matcher.openers.getD repetition [] =
      item.places.map fun place => (place.2, repetitions.length) := by
  have nonempty := Outline.ids_preorder_ne_nil item
  have inside := Outline.mem_ids_of_surrounding? around
  have fresh : repetition ∉ repetitions := fun among => stands.aboveItems repetition among inside
  rcases stands with ⟨split, nodup, before, behind, -, tabulates⟩
  rw [List.flatMap_cons, List.map_append] at nodup before behind
  -- Of the four stretches of binders only that of the item itself has the repetition around it.
  have elsewhere : ∀ others : List Binder,
      Apart (item.preorder.map Outline.id ++ (items.flatMap Outline.preorder).map Outline.id)
        others → openedBy others repetition = [] := by
    intro others apart
    apply openedBy_eq_nil
    intro binder other among
    apply (apart binder other).2 repetition among
    rw [List.tail_append_of_ne_nil nonempty]
    exact List.mem_append_right _ inside
  have opened : matcher.openers.getD repetition [] = openedBy all repetition := by
    rcases List.mem_map.mp inside with ⟨node, member, rfl⟩
    exact tabulates.openers node (List.mem_append_right _ member)
  rw [Outline.bindersOfRow_eq, List.append_assoc, around] at split
  rw [opened, split, openedBy, List.filterMap_append, List.filterMap_append,
    List.filterMap_append, ← openedBy, ← openedBy, ← openedBy, ← openedBy,
    elsewhere earlier before, elsewhere later behind,
    openedBy_bindersOfRow around (List.nodup_append'.mp nodup).2.1 fresh]
  simpa using openedBy_binders fresh item

end Stands

/-- The entries of the tables fit the nodes. -/
theorem fits_of_stands {matcher : Matcher α} {registry : Registry α} {all : List Binder} :
    Compositional (α := α)
      (fun outline => ∀ repetitions earlier later,
        matcher.Stands registry all outline.preorder repetitions (binders repetitions outline)
          earlier later →
        matcher.Fits registry repetitions.length outline)
      (fun outlines => ∀ ordered repetitions earlier later,
        matcher.Stands registry all (outlines.flatMap Outline.preorder) repetitions
          (bindersOfRow ordered repetitions outlines) earlier later →
        matcher.FitsRow registry repetitions.length ordered outlines) where
  node id kind children ofChildren repetitions earlier later stands := by
    refine ⟨?_, ?_, ofChildren _ _ _ _ stands.children⟩
    · rintro name rfl
      exact stands.depth
    · apply stands.tabulates.decomposer (.node id kind children)
      rw [Outline.preorder_node]
      exact List.mem_cons_self
  nil ordered repetitions earlier later stands := trivial
  cons item items ofItem ofItems ordered repetitions earlier later stands := by
    refine ⟨?_, ofItems _ _ _ _ stands.tail⟩
    have ofUnit := ofItem _ _ _ stands.head
    cases around : surrounding? ordered items with
    | none => simpa [around] using ofUnit
    | some repetition => exact ⟨stands.openers around, by simpa [around] using ofUnit⟩

/-! ## Compilation -/

theorem exists_of_map_ok {β γ ε : Type} {change : β → γ} {outcome : Except ε β} {result : γ}
    (mapped : outcome.map change = .ok result) :
    ∃ former, outcome = .ok former ∧ result = change former := by
  cases outcome with
  | error error => cases mapped
  | ok former => exact ⟨former, rfl, (Except.ok.inj mapped).symm⟩

theorem resolveAll_cons {registry : Registry α} {kind : NodeKind α} {kinds : List (NodeKind α)}
    {decomposers : List (Option (Decomposer α))}
    (resolved : resolveAll registry (kind :: kinds) = .ok decomposers) :
    ∃ first others, decomposers = first :: others ∧ resolveAll registry kinds = .ok others ∧
      ∀ shape, kind = .deconstruct shape → ∃ decomposer,
        registry.resolve shape = .ok decomposer ∧ first = some decomposer := by
  cases kind with
  | deconstruct shape =>
      rw [resolveAll] at resolved
      cases found : registry.resolve shape with
      | error error => simp [found] at resolved
      | ok decomposer =>
          rw [found] at resolved
          rcases exists_of_map_ok resolved with ⟨others, ok, rfl⟩
          refine ⟨_, others, rfl, ok, ?_⟩
          rintro _ ⟨⟩
          exact ⟨decomposer, found, rfl⟩
  | _ =>
      rcases exists_of_map_ok resolved with ⟨others, ok, rfl⟩
      refine ⟨_, others, rfl, ok, ?_⟩
      intro shape isShape
      cases isShape

theorem resolveAll_getElem? {registry : Registry α} {kinds : List (NodeKind α)}
    {decomposers : List (Option (Decomposer α))}
    (resolved : resolveAll registry kinds = .ok decomposers) {index : Nat} {shape : Shape}
    (present : kinds[index]? = some (.deconstruct shape)) :
    ∃ decomposer, registry.resolve shape = .ok decomposer ∧
      decomposers[index]? = some (some decomposer) := by
  induction kinds generalizing index decomposers with
  | nil => cases present
  | cons kind kinds induction =>
      rcases resolveAll_cons resolved with ⟨first, others, rfl, ok, ofShape⟩
      cases index with
      | zero =>
          rcases ofShape shape (by simpa using present) with ⟨decomposer, found, rfl⟩
          exact ⟨decomposer, found, rfl⟩
      | succ index => exact induction ok (by simpa using present)

theorem occurrences_eq (binders : List Binder) :
    occurrences binders =
      Named.grouped (binders.map fun binder => (binder.name, binder.id)) := by
  have ongoing : ∀ earlier : Named Nat,
      binders.foldl (fun groups binder => addOccurrence binder.name binder.id groups)
          (Named.grouped earlier) =
        Named.grouped (earlier ++ binders.map fun binder => (binder.name, binder.id)) := by
    induction binders with
    | nil => simp
    | cons binder binders induction =>
        intro earlier
        rw [List.foldl_cons, ← Named.grouped_append, induction, List.map_cons, List.append_assoc]
        rfl
  exact ongoing []

theorem firstOccurrences_grouped (places : Named Nat) :
    firstOccurrences (Named.grouped places) = Named.firsts places := by
  rw [firstOccurrences, Named.grouped, List.filterMap_map]
  have first : ∀ place ∈ Named.firsts places,
      (Named.under place.1 places).head?.map (fun id => (place.1, id)) = some place := by
    intro place member
    rcases Named.under_of_mem_firsts member with ⟨others, equal⟩
    rw [equal]
    rfl
  exact (List.filterMap_congr first).trans (List.filterMap_some)

structure Compiled [BEq α] (matcher : Matcher α) (pattern : Pattern α) (registry : Registry α)
    (options : Options) : Prop where
  outline : matcher.outline = Outline.ofPattern options.defaultGreed pattern
  size : matcher.tree.size = matcher.outline.preorder.length
  orderly : pattern.Orderly
  names : matcher.names = Named.firsts matcher.outline.places
  repeatedNames : matcher.repeatedNames =
    ((Named.grouped matcher.outline.places).map Prod.snd).filter fun ids => 1 < ids.length
  branches : ∀ node ∈ matcher.outline.preorder, matcher.branches node.id = node.branches
  fits : matcher.Fits registry 0 matcher.outline

theorem getElem?_id {nodes : List (Outline α)}
    (ids : nodes.map Outline.id = List.range nodes.length) {node : Outline α}
    (member : node ∈ nodes) : nodes[node.id]? = some node := by
  rcases List.getElem_of_mem member with ⟨index, inside, rfl⟩
  have listed := congrArg (·[index]?) ids
  simp [inside] at listed
  simp [listed, inside]

theorem compiled_of_compile [BEq α] {pattern : Pattern α} {registry : Registry α}
    {options : Options} {matcher : Matcher α}
    (compiled : compile pattern registry options = .ok matcher) :
    matcher.Compiled pattern registry options := by
  have ids := Outline.ids_ofPattern options.defaultGreed pattern
  have grouped : occurrences ((Outline.ofPattern options.defaultGreed pattern).binders []) =
      Named.grouped (Outline.ofPattern options.defaultGreed pattern).places := by
    rw [occurrences_eq, Outline.places_of_binders.item]
  simp only [compile] at compiled
  split at compiled
  case h_1 => cases compiled
  case h_2 accepted =>
    split at compiled
    case h_1 => cases compiled
    case h_2 decomposers resolved =>
      cases compiled
      refine ⟨rfl, ?_, Pattern.orderly_of_malformed? accepted, ?_, ?_, ?_, ?_⟩
      · simp [Tree.size, Tree.ofOutline, Tree.length_link.item]
      · exact (congrArg firstOccurrences grouped).trans (firstOccurrences_grouped _)
      · exact congrArg repeatedOccurrences grouped
      · intro node member
        simp [branches, getElem?_id ids member]
      · apply fits_of_stands.item _ [] [] []
        refine ⟨(List.append_nil _).symm, ?_, List.forall_mem_nil _, List.forall_mem_nil _,
          List.forall_mem_nil _, ?_⟩
        · rw [ids]
          exact List.nodup_range
        · refine ⟨?_, ?_, ?_⟩
          · intro node member
            simp [depth, getElem?_id ids member]
          · intro node member
            simp [getElem?_id ids member]
          · intro node member shape isShape
            have present := congrArg (Option.map Outline.kind) (getElem?_id ids member)
            rw [Option.map_some, ← List.getElem?_map, isShape] at present
            rcases resolveAll_getElem? resolved present with ⟨decomposer, found, listed⟩
            exact ⟨decomposer, found, by simp [decomposer?, listed]⟩

section

variable [BEq α] {matcher : Matcher α} {pattern : Pattern α} {registry : Registry α}
variable {options : Options} (compiled : matcher.Compiled pattern registry options)
include compiled

theorem Compiled.orderly_alone : ∀ item ∈ [pattern], item.Orderly :=
  List.forall_mem_singleton.mpr compiled.orderly

theorem Compiled.numberAll_alone :
    (Outline.numberAll options.defaultGreed [pattern] 0).1 = [matcher.outline] := by
  rw [compiled.outline]
  rfl

end

end Matcher

end Destructure
