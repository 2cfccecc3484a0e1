import Destructure.Proofs.Matching.BoundNames
import Destructure.Proofs.Matching.Compilation
import Destructure.Proofs.Matching.Surroundings

/-!
What stands in the tables of a matcher, said of the linked nodes alone: of what is below a node and
of the repetitions that follow it and the nodes above it. The tables are filled by walks of their
own; here they are seen to agree with the table of nodes and with each other.

Main statement: `Matcher.accurate_of_compile`.
-/

namespace Destructure

variable {α : Type}

open Outline (Binder)

namespace Matcher

/-! ## Tables by number -/

theorem depthOf_eq {binders : List Binder} {around : Nat → List Nat} {id : Nat}
    (tied : ∀ binder ∈ binders, binder.repetitions = around binder.id)
    (present : ∃ binder ∈ binders, binder.id = id) :
    depthOf binders id = (around id).length := by
  obtain ⟨binder, member, same⟩ := present
  have present : (binders.find? fun binder => binder.id == id).isSome :=
    List.find?_isSome.mpr ⟨binder, member, beq_iff_eq.mpr same⟩
  obtain ⟨found, isFound⟩ := Option.isSome_iff_exists.mp present
  have isId : found.id = id := by simpa using List.find?_some isFound
  rw [depthOf, isFound, ← isId, ← tied found (List.mem_of_find?_eq_some isFound)]

theorem mem_openedBy {binders : List Binder}
    (distinct : ∀ binder ∈ binders, binder.repetitions.Nodup) {repetition id level : Nat} :
    (id, level) ∈ openedBy binders repetition ↔
      ∃ binder ∈ binders, binder.id = id ∧ binder.repetitions[level]? = some repetition := by
  have level_iff : ∀ binder ∈ binders, binder.repetitions.idxOf? repetition = some level ↔
      binder.repetitions[level]? = some repetition := by
    intro binder member
    rw [List.idxOf?_eq_some_iff, List.getElem?_eq_some_iff]
    constructor
    · rintro ⟨inside, same, -⟩
      exact ⟨inside, same⟩
    · rintro ⟨inside, same⟩
      refine ⟨inside, same, ?_⟩
      intro earlier before same'
      have equal := (distinct binder member).getElem_inj_iff.mp (same'.trans same.symm)
      exact Nat.ne_of_lt before equal
  rw [openedBy, List.mem_filterMap]
  constructor
  · rintro ⟨binder, member, opened⟩
    obtain ⟨other, isLevel, same⟩ := Option.map_eq_some_iff.mp opened
    cases same
    exact ⟨binder, member, rfl, (level_iff binder member).mp isLevel⟩
  · rintro ⟨binder, member, rfl, atLevel⟩
    exact ⟨binder, member, by rw [(level_iff binder member).mpr atLevel]; rfl⟩

theorem sublist_ids_openedBy (binders : List Binder) (repetition : Nat) :
    ((openedBy binders repetition).map Prod.fst).Sublist (binders.map Binder.id) := by
  induction binders with
  | nil => exact .slnil
  | cons binder binders induction =>
      cases isLevel : binder.repetitions.idxOf? repetition with
      | none =>
          rw [openedBy, List.filterMap_cons_none (by rw [isLevel]; rfl)]
          exact induction.cons _
      | some level =>
          rw [openedBy, List.filterMap_cons_some (by rw [isLevel]; rfl)]
          exact induction.cons_cons _

section

variable [BEq α] {pattern : Pattern α} {registry : Registry α} {options : Options}
variable {matcher : Matcher α} (compiled : compile pattern registry options = .ok matcher)
include compiled

/-- What the tables hold under each number. -/
theorem entries_of_compile {id : Nat} {node : Pattern α}
    (listed : pattern.preorder[id]? = some node) :
    matcher.depths[id]? = some (depthOf (matcher.outline.binders []) id) ∧
      matcher.openers[id]? = some (openedBy (matcher.outline.binders []) id) ∧
      matcher.branching[id]? = some (node.preorder.any Pattern.isRepetition) := by
  have numbered := congrArg (·[id]?) (Outline.ids_ofPattern options.defaultGreed pattern)
  have branching := congrArg (·[id]?)
    ((Pattern.branches_numbers options.defaultGreed).item pattern 0).2
  have inside : id < (Outline.ofPattern options.defaultGreed pattern).preorder.length := by
    rw [Outline.ofPattern, Outline.length_number]
    exact (List.getElem?_eq_some_iff.mp listed).1
  simp only [List.getElem?_map, List.getElem?_range inside, listed, Option.map_some]
    at numbered branching
  obtain ⟨entry, present, isId⟩ := Option.map_eq_some_iff.mp numbered
  rw [← Outline.ofPattern, present] at branching
  simp only [compile] at compiled
  split at compiled
  case h_1 => cases compiled
  case h_2 =>
    split at compiled
    case h_1 => cases compiled
    case h_2 decomposers resolved =>
      cases compiled
      simp [present, isId, branching]

end

/-- The tables of a matcher say of the nodes of its pattern what a search takes them to say. -/
structure Accurate (matcher : Matcher α) (pattern : Pattern α) (options : Options) : Prop where
  tree : matcher.tree = Tree.build pattern options
  sizes : matcher.branching.size = matcher.tree.size ∧ matcher.depths.size = matcher.tree.size ∧
    matcher.openers.size = matcher.tree.size
  /-- A node branches if there is a repetition at or below it. -/
  branching : ∀ id < matcher.tree.size, matcher.branching[id]? = some true ↔
    ∃ other, matcher.tree.Below id other ∧ matcher.tree.isKind NodeKind.isRepetition other
  /-- The depth of a variable is how many of its own node and those above it are repeated. -/
  depths : ∀ id name, matcher.tree.kind? id = some (.bind name) →
    matcher.depths[id]? = some (matcher.tree.repeatedAround id).length
  /-- A repetition starts lists for the variables that it stands around, each at the level of the
  node that it follows. -/
  openers : ∀ repetition < matcher.tree.size, ∃ row, matcher.openers[repetition]? = some row ∧
    row.Nodup ∧ ∀ id level, (id, level) ∈ row ↔
      (∃ name, matcher.tree.kind? id = some (.bind name)) ∧
        ∃ node, (matcher.tree.repeatedAround id)[level]? = some node ∧
          matcher.tree.repetitionOf? node = some repetition
  /-- The names stand in the order in which the variables are found in the table of nodes. -/
  names : (matcher.names.map Prod.swap).Sublist (matcher.tree.binders Tree.root)
  distinct : (matcher.names.map Prod.fst).Nodup
  /-- Each name that is bound stands with the first node that binds it. -/
  firsts : ∀ name id, (name, id) ∈ matcher.names ↔ matcher.tree.kind? id = some (.bind name) ∧
    ∀ earlier < id, matcher.tree.kind? earlier ≠ some (.bind name)
  /-- Listed together are the nodes of each name that has two or more. -/
  repeatedNames : matcher.repeatedNames.Nodup ∧ ∀ ids, ids ∈ matcher.repeatedNames ↔
    ∃ name, ids = matcher.tree.nodesOf name ∧ 2 ≤ ids.length
  variableNames : matcher.variableNames = [] ↔ pattern.binds = false

section

variable [BEq α] {pattern : Pattern α} {registry : Registry α} {options : Options}
variable {matcher : Matcher α} (compiled : compile pattern registry options = .ok matcher)
include compiled

theorem exists_listed_of_lt {id : Nat} (inside : id < matcher.tree.size) :
    ∃ node, pattern.preorder[id]? = some node := by
  rw [(tables_of_compile compiled).1, Tree.size_build] at inside
  exact ⟨_, List.getElem?_eq_getElem inside⟩

theorem branching_of_compile {id : Nat} (inside : id < matcher.tree.size) :
    matcher.branching[id]? = some true ↔
      ∃ other, matcher.tree.Below id other ∧
        matcher.tree.isKind NodeKind.isRepetition other := by
  obtain ⟨node, listed⟩ := exists_listed_of_lt compiled inside
  obtain ⟨path, present, numbered⟩ := Pattern.exists_of_preorder listed
  rw [(entries_of_compile compiled listed).2.2, (tables_of_compile compiled).1,
    Option.some.injEq, List.any_eq_true]
  subst numbered
  simp only [Tree.below_at_iff present]
  have seats := Tree.seats_build pattern options
  constructor
  · rintro ⟨found, member, isRepetition⟩
    obtain ⟨further, onward⟩ := Pattern.exists_at?_of_mem_preorder.item node found member
    have atFound : pattern.at? (path ++ further) = some found := by
      rw [Pattern.at?_append_of_eq present, onward]
    refine ⟨_, ⟨further, found, onward, rfl⟩, ?_⟩
    rw [Tree.isKind_at seats atFound, Pattern.isRepetition_nodeKind, isRepetition]
  · rintro ⟨_, ⟨further, found, onward, rfl⟩, isRepetition⟩
    have atFound : pattern.at? (path ++ further) = some found := by
      rw [Pattern.at?_append_of_eq present, onward]
    rw [Tree.isKind_at seats atFound, Pattern.isRepetition_nodeKind] at isRepetition
    exact ⟨found, Pattern.mem_preorder_of_at? onward, isRepetition⟩

theorem mem_binders_of_compile {binder : Binder} :
    binder ∈ matcher.outline.binders [] ↔
      matcher.tree.kind? binder.id = some (.bind binder.name) ∧
        binder.repetitions = matcher.tree.repetitionsAround binder.id := by
  rw [(compiled_of_compile compiled).outline, (tables_of_compile compiled).1,
    Tree.mem_binders_ofPattern, Tree.boundName?_eq_some_iff]

theorem depths_of_compile {id : Nat} {name : String}
    (bound : matcher.tree.kind? id = some (.bind name)) :
    matcher.depths[id]? = some (matcher.tree.repeatedAround id).length := by
  obtain ⟨node, listed⟩ := exists_listed_of_lt compiled (Tree.lt_size_of_kind? bound)
  rw [(entries_of_compile compiled listed).1, Tree.length_repeatedAround]
  congr 1
  apply depthOf_eq
  · intro binder member
    exact ((mem_binders_of_compile compiled).mp member).2
  · exact ⟨⟨id, name, matcher.tree.repetitionsAround id⟩,
      (mem_binders_of_compile compiled).mpr ⟨bound, rfl⟩, rfl⟩

theorem openers_of_compile {repetition : Nat} (inside : repetition < matcher.tree.size) :
    ∃ row, matcher.openers[repetition]? = some row ∧ row.Nodup ∧ ∀ id level, (id, level) ∈ row ↔
      (∃ name, matcher.tree.kind? id = some (.bind name)) ∧
        ∃ node, (matcher.tree.repeatedAround id)[level]? = some node ∧
          matcher.tree.repetitionOf? node = some repetition := by
  obtain ⟨node, listed⟩ := exists_listed_of_lt compiled inside
  refine ⟨_, (entries_of_compile compiled listed).2.1, ?_, ?_⟩
  · have ids : (matcher.outline.binders []).map Binder.id =
        matcher.outline.places.map Prod.snd := by
      rw [← Outline.places_of_binders.item _ [], List.map_map]
      rfl
    have distinct := (compiled_of_compile compiled).nodup_ids
    exact ((sublist_ids_openedBy _ _).nodup (ids ▸ Outline.nodup_ids_places distinct)).of_map _
  · intro id level
    rw [mem_openedBy, ← Tree.getElem?_repetitionsAround]
    · constructor
      · rintro ⟨binder, member, rfl, atLevel⟩
        obtain ⟨bound, around⟩ := (mem_binders_of_compile compiled).mp member
        exact ⟨⟨binder.name, bound⟩, around ▸ atLevel⟩
      · rintro ⟨⟨name, bound⟩, atLevel⟩
        exact ⟨⟨id, name, matcher.tree.repetitionsAround id⟩,
          (mem_binders_of_compile compiled).mpr ⟨bound, rfl⟩, rfl, atLevel⟩
    · intro binder member
      rw [((mem_binders_of_compile compiled).mp member).2, (tables_of_compile compiled).1]
      exact Tree.nodup_repetitionsAround pattern options binder.id

theorem places_of_compile : matcher.outline.places = matcher.tree.namedNodes := by
  rw [(compiled_of_compile compiled).outline, (tables_of_compile compiled).1,
    Tree.places_ofPattern]

theorem names_of_compile : matcher.names = Named.firsts matcher.tree.namedNodes := by
  rw [(compiled_of_compile compiled).names, places_of_compile compiled]

theorem mem_variableNames {name : String} :
    name ∈ matcher.variableNames ↔ ∃ id, matcher.tree.kind? id = some (.bind name) := by
  rw [variableNames, names_of_compile compiled, ← Named.names, Named.mem_names_firsts, Named.names,
    List.mem_map]
  constructor
  · rintro ⟨⟨name, id⟩, member, rfl⟩
    exact ⟨id, Tree.mem_namedNodes.mp member⟩
  · rintro ⟨id, bound⟩
    exact ⟨(name, id), Tree.mem_namedNodes.mpr bound, rfl⟩

theorem nodup_variableNames : matcher.variableNames.Nodup := by
  rw [variableNames, names_of_compile compiled]
  exact Named.nodup_names_firsts _

theorem repeatedNames_of_compile : matcher.repeatedNames =
    (matcher.variableNames.map matcher.tree.nodesOf).filter fun ids => 1 < ids.length := by
  rw [(compiled_of_compile compiled).repeatedNames, places_of_compile compiled, variableNames,
    names_of_compile compiled, Named.grouped, List.map_map, List.map_map]
  congr 2
  funext first
  exact Tree.under_namedNodes matcher.tree first.1

theorem nodup_repeatedNames : matcher.repeatedNames.Nodup := by
  rw [repeatedNames_of_compile compiled]
  apply (List.Nodup.map_on _ (nodup_variableNames compiled)).filter
  intro name isName name' _ same
  -- The groups of two names differ, as no node is in both and none of them is empty.
  obtain ⟨id, bound⟩ := (mem_variableNames compiled).mp isName
  have bound' := Tree.mem_nodesOf.mp (same ▸ Tree.mem_nodesOf.mpr bound)
  cases bound.symm.trans bound'
  rfl

theorem mem_repeatedNames {ids : List Nat} :
    ids ∈ matcher.repeatedNames ↔ ∃ name, ids = matcher.tree.nodesOf name ∧ 2 ≤ ids.length := by
  rw [repeatedNames_of_compile compiled, List.mem_filter, decide_eq_true_iff, List.mem_map]
  constructor
  · rintro ⟨⟨name, -, rfl⟩, several⟩
    exact ⟨name, rfl, several⟩
  · rintro ⟨name, rfl, several⟩
    obtain ⟨id, member⟩ := List.exists_mem_of_length_pos (Nat.lt_of_lt_of_le Nat.two_pos several)
    have isName := (mem_variableNames compiled).mpr ⟨id, Tree.mem_nodesOf.mp member⟩
    exact ⟨⟨name, isName, rfl⟩, several⟩

/-- The tables of a pattern that compiles are accurate. -/
theorem accurate_of_compile : matcher.Accurate pattern options where
  tree := (tables_of_compile compiled).1
  sizes := by
    obtain ⟨-, ⟨-, depths, openers, branching⟩, -⟩ := tables_of_compile compiled
    exact ⟨branching, depths, openers⟩
  branching id inside := branching_of_compile compiled inside
  depths id name bound := depths_of_compile compiled bound
  openers repetition inside := openers_of_compile compiled inside
  names := by
    have swapped := congrArg (List.map Prod.swap) (Tree.map_swap_binders_root pattern options)
    rw [List.map_map, Prod.swap_swap_eq, List.map_id] at swapped
    rw [names_of_compile compiled, (tables_of_compile compiled).1, swapped]
    exact (Named.firsts_sublist _).map Prod.swap
  distinct := nodup_variableNames compiled
  firsts name id := by
    rw [names_of_compile compiled, Named.mem_firsts_iff matcher.tree.namedNodes_ascending,
      Tree.mem_namedNodes]
    simp only [Tree.mem_namedNodes, ne_eq]
  repeatedNames := ⟨nodup_repeatedNames compiled, fun ids => mem_repeatedNames compiled⟩
  variableNames := by
    rw [(compiled_of_compile compiled).variableNames_eq, Pattern.binds_eq_false_iff.item]
    simp only [List.eq_nil_iff_forall_not_mem, List.mem_eraseDups]

end

/-- In `[[x, ..], .., y, x]` the repetition with the number 3 follows the first variable, and that
with the number 4 follows the list around it. -/
theorem tables_of_nested_repetitions : ∃ matcher : Matcher Nat,
    compile (.list [.list [.bind "x", .repetition 0 none], .repetition 0 none, .bind "y",
      .bind "x"]) .standard {} = .ok matcher ∧
    matcher.depths[2]? = some 2 ∧
    (∃ row, matcher.openers[3]? = some row ∧ (2, 1) ∈ row) ∧
    [2, 6] ∈ matcher.repeatedNames := by
  obtain ⟨matcher, compiled⟩ : ∃ matcher : Matcher Nat,
      compile (.list [.list [.bind "x", .repetition 0 none], .repetition 0 none, .bind "y",
        .bind "x"]) .standard {} = .ok matcher := ⟨_, rfl⟩
  have accurate := accurate_of_compile compiled
  have openers := accurate.openers 3
  have depths := accurate.depths 2 "x"
  have repeatedNames := accurate.repeatedNames.2 [2, 6]
  rw [accurate.tree] at openers depths repeatedNames
  obtain ⟨row, listed, -, opened⟩ := openers (by decide)
  exact ⟨matcher, compiled, depths rfl,
    ⟨row, listed, (opened 2 1).mpr ⟨⟨"x", rfl⟩, 2, rfl, rfl⟩⟩,
    repeatedNames.mpr ⟨"x", rfl, by decide⟩⟩

end Matcher

end Destructure
