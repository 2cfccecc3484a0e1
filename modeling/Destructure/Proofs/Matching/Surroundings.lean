import Destructure.Proofs.Matching.Tables
import Destructure.Proofs.Pattern.Links

/-!
The linked nodes of a pattern as a walk over its outline finds them: the variables in the order of
their numbers, each with the repetitions that follow it and the nodes above it, and for every node
whether there is a repetition at or below it.
-/

namespace Destructure

variable {α : Type}

open Outline (number numberAll Binder)

namespace Tree

/-! ## Repetitions around a node -/

def repeatedAround (tree : Tree α) (id : Nat) : List Nat :=
  (tree.lineage id).reverse.filter fun node => (tree.repetitionOf? node).isSome

def repetitionsAround (tree : Tree α) (id : Nat) : List Nat :=
  (tree.lineage id).reverse.filterMap tree.repetitionOf?

theorem map_repeatedAround (tree : Tree α) (id : Nat) :
    (tree.repeatedAround id).map tree.repetitionOf? = (tree.repetitionsAround id).map some := by
  rw [repetitionsAround, List.map_filterMap_some_eq_filter_map_isSome, List.filter_map]
  rfl

theorem length_repeatedAround (tree : Tree α) (id : Nat) :
    (tree.repeatedAround id).length = (tree.repetitionsAround id).length := by
  simpa using congrArg List.length (tree.map_repeatedAround id)

/-- The repetition at a level is the one that follows the node at this level. -/
theorem getElem?_repetitionsAround (tree : Tree α) (id level repetition : Nat) :
    (tree.repetitionsAround id)[level]? = some repetition ↔
      ∃ node, (tree.repeatedAround id)[level]? = some node ∧
        tree.repetitionOf? node = some repetition := by
  have atLevel := congrArg (·[level]?) (tree.map_repeatedAround id)
  simp only [List.getElem?_map] at atLevel
  rw [← Option.map_eq_some_iff, atLevel, Option.map_eq_some_iff]
  constructor
  · intro present
    exact ⟨repetition, present, rfl⟩
  · rintro ⟨other, present, same⟩
    rwa [← Option.some.inj same]

section

variable {tree : Tree α} (descends : tree.Descends)
include descends

theorem forall_mem_ancestorsWithin_lt (bound id : Nat) :
    ∀ above ∈ tree.ancestorsWithin bound id, above < id := by
  induction bound generalizing id with
  | zero => exact List.forall_mem_nil _
  | succ bound induction =>
      rw [ancestorsWithin]
      cases isParent : tree.parent? id with
      | none => exact List.forall_mem_nil _
      | some parent =>
          have before := descends id parent isParent
          exact List.forall_mem_cons.mpr
            ⟨before, fun above member => Nat.lt_trans (induction parent above member) before⟩

theorem nodup_ancestorsWithin (bound id : Nat) : (tree.ancestorsWithin bound id).Nodup := by
  induction bound generalizing id with
  | zero => exact List.nodup_nil
  | succ bound induction =>
      rw [ancestorsWithin]
      cases tree.parent? id with
      | none => exact List.nodup_nil
      | some parent =>
          refine List.nodup_cons.mpr ⟨?_, induction parent⟩
          intro member
          exact Nat.lt_irrefl _ (forall_mem_ancestorsWithin_lt descends bound parent parent member)

theorem nodup_lineage (id : Nat) : (tree.lineage id).Nodup :=
  List.nodup_cons.mpr ⟨fun member =>
    Nat.lt_irrefl _ (forall_mem_ancestorsWithin_lt descends id id id member),
    nodup_ancestorsWithin descends id id⟩

/-- A node has around it what is around its parent, and then the repetition that follows it. -/
theorem repetitionsAround_of_parent? {id parent : Nat} (isParent : tree.parent? id = some parent) :
    tree.repetitionsAround id =
      tree.repetitionsAround parent ++ (tree.repetitionOf? id).toList := by
  rw [repetitionsAround, lineage, ancestors_eq descends isParent, ← lineage, List.reverse_cons,
    List.filterMap_append, ← repetitionsAround]
  cases repeated : tree.repetitionOf? id <;> simp [repeated]

end

variable {tree : Tree α} {defaultGreed : Greed}

theorem repetitionOf?_head {above : Nat} {ordered : Bool} {previous : Option Nat}
    {item : Pattern α} {items : List (Pattern α)} {first : Nat}
    (seats : tree.SeatsRow defaultGreed above ordered previous (item :: items) first) :
    tree.repetitionOf? first = Outline.surrounding? ordered
      (numberAll defaultGreed items (number defaultGreed item first).2).1 := by
  rw [repetitionOf?, next?_eq seats.head.node?_eq, Outline.surrounding?]
  cases ordered with
  | false => rfl
  | true =>
      cases items with
      | nil => rfl
      | cons next others =>
          have isKind := isKind_eq seats.tail.head.node?_eq NodeKind.isRepetition
          rw [if_pos rfl, if_pos rfl, Outline.numberAll_cons, leadingId?, Outline.id_number,
            Option.filter, isKind, Outline.number_eq]
          cases next <;> rfl

theorem repetitionsAround_root {pattern : Pattern α} {previous : Option Nat}
    (seats : tree.Seats defaultGreed none previous none pattern 0) (descends : tree.Descends) :
    tree.repetitionsAround root = [] := by
  rw [repetitionsAround, lineage, ancestors, root, ancestorsWithin_zero descends,
    List.reverse_singleton, List.filterMap_cons_none, List.filterMap_nil]
  rw [repetitionOf?, next?_eq seats.node?_eq]
  rfl

/-- No repetition follows two nodes, so none is around a node twice. -/
theorem nodup_repetitionsAround (pattern : Pattern α) (options : Options) (id : Nat) :
    ((build pattern options).repetitionsAround id).Nodup := by
  apply List.Nodup.filterMap _
    (List.nodup_reverse.mpr (nodup_lineage (descends_ofPattern options.defaultGreed pattern) id))
  intro node other repetition follows follows'
  have adjacent := next?_eq_some_iff.mp (Option.filter_eq_some_iff.mp follows).1
  have adjacent' := next?_eq_some_iff.mp (Option.filter_eq_some_iff.mp follows').1
  exact Option.some.inj
    ((previous?_eq_some_iff.mpr adjacent).symm.trans (previous?_eq_some_iff.mpr adjacent'))

/-! ## Variables -/

def binder? (tree : Tree α) (id : Nat) : Option Binder :=
  (tree.boundName? id).map fun name => ⟨id, name, tree.repetitionsAround id⟩

theorem binder?_eq_some_iff {id : Nat} {binder : Binder} :
    tree.binder? id = some binder ↔
      binder.id = id ∧ tree.boundName? id = some binder.name ∧
        binder.repetitions = tree.repetitionsAround id := by
  rw [binder?, Option.map_eq_some_iff]
  constructor
  · rintro ⟨name, bound, rfl⟩
    exact ⟨rfl, bound, rfl⟩
  · rintro ⟨rfl, bound, around⟩
    exact ⟨binder.name, bound, by rw [← around]⟩

/-- The walk that collects variables finds those of the table, each with the repetitions around
it there. -/
theorem binders_numbers (descends : tree.Descends) (defaultGreed : Greed) :
    Pattern.Compositional (α := α)
      (fun pattern => ∀ first parent previous next,
        tree.Seats defaultGreed parent previous next pattern first →
        Outline.binders (tree.repetitionsAround first) (number defaultGreed pattern first).1 =
          (List.range' first pattern.extent).filterMap tree.binder?)
      (fun patterns => ∀ first above ordered previous,
        tree.SeatsRow defaultGreed above ordered previous patterns first →
        Outline.bindersOfRow ordered (tree.repetitionsAround above)
            (numberAll defaultGreed patterns first).1 =
          (List.range' first (Pattern.rowExtent patterns)).filterMap tree.binder?) where
  whole pattern ofParts first parent previous next seats := by
    have bound : tree.boundName? first = pattern.boundName? := boundName?_at seats pattern.at?_nil
    rw [Outline.number_eq, Outline.binders_node, ofParts _ first _ none seats.parts,
      Pattern.extent_eq, List.range'_succ, List.filterMap_cons, binder?, bound, Outline.place?,
      Outline.kind, Pattern.boundName?_nodeKind]
    cases pattern.boundName? <;> rfl
  nil first above ordered previous seats := rfl
  cons item items ofItem ofItems first above ordered previous seats := by
    have here := ofItem first _ _ _ seats.head
    rw [repetitionsAround_of_parent? descends (parent?_eq seats.head.node?_eq),
      repetitionOf?_head seats] at here
    rw [Outline.numberAll_cons, Outline.bindersOfRow_eq, here, ofItems _ _ _ _ seats.tail,
      Outline.next_number, ← List.filterMap_append, List.range'_append_1, Pattern.rowExtent_cons]

theorem binders_ofPattern (pattern : Pattern α) (options : Options) :
    (Outline.ofPattern options.defaultGreed pattern).binders [] =
      (build pattern options).ids.filterMap (build pattern options).binder? := by
  have seats := seats_build pattern options
  have descends : (build pattern options).Descends :=
    descends_ofPattern options.defaultGreed pattern
  rw [ids, size_build, List.range_eq_range', ← (binders_numbers descends _).item pattern 0 none
    none none seats, ← repetitionsAround_root seats descends]
  rfl

theorem lt_size_of_kind? {id : Nat} {kind : NodeKind α} (isKind : tree.kind? id = some kind) :
    id < tree.size := by
  obtain ⟨node, present, -⟩ := Option.map_eq_some_iff.mp isKind
  exact (Array.getElem?_eq_some_iff.mp present).1

theorem mem_binders_ofPattern {pattern : Pattern α} {options : Options} {binder : Binder} :
    binder ∈ (Outline.ofPattern options.defaultGreed pattern).binders [] ↔
      (build pattern options).boundName? binder.id = some binder.name ∧
        binder.repetitions = (build pattern options).repetitionsAround binder.id := by
  rw [binders_ofPattern, List.mem_filterMap]
  constructor
  · rintro ⟨id, -, isBinder⟩
    obtain ⟨rfl, bound, around⟩ := binder?_eq_some_iff.mp isBinder
    exact ⟨bound, around⟩
  · rintro ⟨bound, around⟩
    refine ⟨binder.id, ?_, binder?_eq_some_iff.mpr ⟨rfl, bound, around⟩⟩
    obtain ⟨kind, isKind, -⟩ := Option.bind_eq_some_iff.mp bound
    exact List.mem_range.mpr (lt_size_of_kind? isKind)

def namedNodes (tree : Tree α) : Named Nat :=
  tree.ids.filterMap fun id => (tree.boundName? id).map fun name => (name, id)

theorem places_ofPattern (pattern : Pattern α) (options : Options) :
    (Outline.ofPattern options.defaultGreed pattern).places =
      (build pattern options).namedNodes := by
  rw [← Outline.places_of_binders.item _ [], binders_ofPattern, List.map_filterMap, namedNodes]
  congr 1
  funext id
  rw [binder?, Option.map_map]
  rfl

theorem map_swap_binders_root (pattern : Pattern α) (options : Options) :
    ((build pattern options).binders root).map Prod.swap = (build pattern options).namedNodes := by
  have seats := seats_build pattern options
  rw [← places_ofPattern, binders]
  exact (bindersWithin_eq _ options.defaultGreed).item pattern 0 _ _ _ _ seats seats.length_le

theorem boundName?_eq_some_iff {id : Nat} {name : String} :
    tree.boundName? id = some name ↔ tree.kind? id = some (.bind name) := by
  rw [boundName?, Option.bind_eq_some_iff]
  constructor
  · rintro ⟨kind, isKind, bound⟩
    cases kind <;> cases bound
    exact isKind
  · intro isKind
    exact ⟨_, isKind, rfl⟩

theorem mem_namedNodes {name : String} {id : Nat} :
    (name, id) ∈ tree.namedNodes ↔ tree.kind? id = some (.bind name) := by
  rw [namedNodes, List.mem_filterMap, ← boundName?_eq_some_iff]
  constructor
  · rintro ⟨other, -, found⟩
    obtain ⟨name', bound, same⟩ := Option.map_eq_some_iff.mp found
    cases same
    exact bound
  · intro bound
    refine ⟨id, ?_, by rw [bound]; rfl⟩
    exact List.mem_range.mpr (lt_size_of_kind? (boundName?_eq_some_iff.mp bound))

def nodesOf (tree : Tree α) (name : String) : List Nat :=
  tree.ids.filter fun id => tree.boundName? id = some name

theorem mem_nodesOf {name : String} {id : Nat} :
    id ∈ tree.nodesOf name ↔ tree.kind? id = some (.bind name) := by
  rw [nodesOf, List.mem_filter, decide_eq_true_iff, boundName?_eq_some_iff]
  constructor
  · rintro ⟨-, bound⟩
    exact bound
  · intro bound
    exact ⟨List.mem_range.mpr (lt_size_of_kind? bound), bound⟩

theorem under_namedNodes (tree : Tree α) (name : String) :
    Named.under name tree.namedNodes = tree.nodesOf name := by
  rw [nodesOf, Named.under, namedNodes, List.filterMap_filterMap, ← List.filterMap_eq_filter]
  congr 1
  funext id
  cases bound : tree.boundName? id with
  | none => simp [bound, Option.guard]
  | some other => by_cases same : other = name <;> simp [bound, Option.guard, same]

theorem namedNodes_ascending (tree : Tree α) :
    tree.namedNodes.Pairwise fun one other => one.2 < other.2 := by
  apply List.Pairwise.filterMap _ _ List.pairwise_lt_range
  intro id other before pair isPair pair' isPair'
  obtain ⟨name, -, rfl⟩ := Option.map_eq_some_iff.mp isPair
  obtain ⟨name', -, rfl⟩ := Option.map_eq_some_iff.mp isPair'
  exact before

end Tree

namespace Pattern

theorem someBind_eq (patterns : List (Pattern α)) : someBind patterns = patterns.any binds := by
  induction patterns with
  | nil => rfl
  | cons pattern patterns induction => rw [someBind, induction, List.any_cons]

theorem someEntryBinds_eq (entries : List (Value α × Pattern α)) :
    someEntryBinds entries = (entries.map Prod.snd).any binds := by
  induction entries with
  | nil => rfl
  | cons entry entries induction => rw [someEntryBinds, induction, List.map_cons, List.any_cons]

theorem binds_eq (pattern : Pattern α) :
    pattern.binds = (pattern.boundName?.isSome || pattern.parts.any binds) := by
  cases pattern with
  | keyed shape entries => exact someEntryBinds_eq entries
  | deconstruct shape items => exact someBind_eq items
  | sequence items => exact someBind_eq items
  | and operands => exact someBind_eq operands
  | or operands => exact someBind_eq operands
  | not operands => exact someBind_eq operands
  | _ => rfl

theorem binds_eq_false_iff : Compositional (α := α)
    (fun pattern => pattern.binds = false ↔ pattern.boundNames = [])
    (fun patterns => patterns.any binds = false ↔ patterns.flatMap boundNames = []) where
  whole pattern ofParts := by
    rw [binds_eq, boundNames_eq, Bool.or_eq_false_iff, ofParts, List.append_eq_nil_iff]
    cases pattern.boundName? <;> simp
  nil := by simp
  cons item items ofItem ofItems := by
    rw [List.any_cons, List.flatMap_cons, Bool.or_eq_false_iff, ofItem, ofItems,
      List.append_eq_nil_iff]

/-- A node branches if there is a repetition at or below it, and so for all nodes inside it. -/
theorem branches_numbers (defaultGreed : Greed) : Compositional (α := α)
    (fun pattern => ∀ first,
      (number defaultGreed pattern first).1.branches = pattern.preorder.any isRepetition ∧
      (number defaultGreed pattern first).1.preorder.map Outline.branches =
        pattern.preorder.map fun node => node.preorder.any isRepetition)
    (fun patterns => ∀ first,
      Outline.someBranch (numberAll defaultGreed patterns first).1 =
        (patterns.flatMap preorder).any isRepetition ∧
      ((numberAll defaultGreed patterns first).1.flatMap Outline.preorder).map Outline.branches =
        (patterns.flatMap preorder).map fun node => node.preorder.any isRepetition) where
  whole pattern ofParts first := by
    obtain ⟨some, below⟩ := ofParts (first + 1)
    have here : (number defaultGreed pattern first).1.branches =
        pattern.preorder.any isRepetition := by
      rw [Outline.number_eq, Outline.branches, some, isRepetition_nodeKind, preorder_eq,
        List.any_cons]
    refine ⟨here, ?_⟩
    rw [Outline.number_eq] at here ⊢
    rw [Outline.preorder_node, List.map_cons, below, here, preorder_eq, List.map_cons,
      ← preorder_eq]
  nil first := ⟨rfl, rfl⟩
  cons item items ofItem ofItems first := by
    obtain ⟨here, below⟩ := ofItem first
    obtain ⟨some, later⟩ := ofItems (number defaultGreed item first).2
    constructor
    · rw [Outline.numberAll_cons, Outline.someBranch, here, some, List.flatMap_cons,
        List.any_append]
    · rw [Outline.numberAll_cons, List.flatMap_cons, List.map_append, below, later,
        List.flatMap_cons, List.map_append]

end Pattern

end Destructure
