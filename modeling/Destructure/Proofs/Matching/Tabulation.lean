import Destructure.Proofs.Matching.TableContents
import Destructure.Proofs.Pattern.Filling

/-!
The tables that are filled in place. A walk along the links collects the variables, in the order and
with the repetitions of the outline; entering them one after another, and finding out from the last
node to the first which nodes branch, gives the tables that compilation makes.

Main statement: `Matcher.filled_of_compile`.
-/

namespace Destructure

variable {α : Type}

open Outline (number numberAll Binder)

namespace Matcher

/-! ## Variables along the links -/

theorem collectWithin_numbers (tree : Tree α) (defaultGreed : Greed) :
    Pattern.Compositional (α := α)
      (fun pattern => ∀ first parent previous next bound repetitions,
        tree.Seats defaultGreed parent previous next pattern first → pattern.extent ≤ bound →
        collectWithin tree bound repetitions first =
          Outline.binders (repetitions ++ (tree.repetitionOf? first).toList)
            (number defaultGreed pattern first).1)
      (fun patterns => ∀ first above ordered previous bound repetitions,
        tree.SeatsRow defaultGreed above ordered previous patterns first →
        Pattern.rowExtent patterns ≤ bound →
        ((numberAll defaultGreed patterns first).1.map Outline.id).flatMap
            (collectWithin tree bound repetitions) =
          Outline.bindersOfRow ordered repetitions (numberAll defaultGreed patterns first).1) where
  whole pattern ofParts first parent previous next bound repetitions seats enough := by
    rw [Pattern.extent_eq] at enough
    cases bound with
    | zero => exact absurd enough (Nat.not_succ_le_zero _)
    | succ bound =>
        have parts := ofParts (first + 1) first _ none bound
          (repetitions ++ (tree.repetitionOf? first).toList) seats.parts
          (Nat.le_of_succ_le_succ enough)
        rw [collectWithin, Tree.kind?_eq seats.node?_eq, Tree.children_eq seats.node?_eq]
        dsimp only
        rw [parts, Outline.number_eq, Outline.binders_node]
        cases pattern <;> rfl
  nil first above ordered previous bound repetitions seats enough := rfl
  cons item items ofItem ofItems first above ordered previous bound repetitions seats enough := by
    rw [Pattern.rowExtent_cons] at enough
    rw [Outline.numberAll_cons, List.map_cons, List.flatMap_cons, Outline.id_number,
      ofItem first _ _ _ bound repetitions seats.head (by omega), Tree.repetitionOf?_head seats,
      ofItems _ _ _ _ bound repetitions seats.tail (by omega), Outline.bindersOfRow_eq]

theorem collect_build (pattern : Pattern α) (options : Options) :
    collect (Tree.build pattern options) =
      (Outline.ofPattern options.defaultGreed pattern).binders [] := by
  have seats := Tree.seats_build pattern options
  have root : (Tree.build pattern options).repetitionOf? 0 = none := by
    rw [Tree.repetitionOf?, Tree.next?_eq seats.node?_eq]
    rfl
  have walk := (collectWithin_numbers _ options.defaultGreed).item pattern 0 none none none
    (Tree.build pattern options).size [] seats (Tree.size_build pattern options).ge
  rw [root] at walk
  exact walk

/-! ## Entries -/

theorem getElem?_foldl_setIfInBounds {around : Nat → List Nat} {binders : List Binder}
    (tied : ∀ binder ∈ binders, binder.repetitions = around binder.id) {depths : Array Nat}
    {id : Nat} (inside : id < depths.size) :
    (binders.foldl (fun depths binder =>
        depths.setIfInBounds binder.id binder.repetitions.length) depths)[id]? =
      if binders.any (·.id == id) then some (around id).length else depths[id]? := by
  induction binders generalizing depths with
  | nil => rfl
  | cons binder binders induction =>
      obtain ⟨here, others⟩ := List.forall_mem_cons.mp tied
      rw [List.foldl_cons, induction others (by simpa using inside), List.any_cons,
        Array.getElem?_setIfInBounds, here]
      by_cases same : binder.id = id
      · subst same
        simp [inside]
      · simp [same]

theorem size_foldl {Entry Item : Type} {step : Array Entry → Item → Array Entry}
    (keeps : ∀ table item, (step table item).size = table.size) (items : List Item)
    (table : Array Entry) : (items.foldl step table).size = table.size := by
  induction items generalizing table with
  | nil => rfl
  | cons item items induction => rw [List.foldl_cons, induction, keeps]

theorem size_fillDepths (size : Nat) (binders : List Binder) :
    (fillDepths size binders).size = size := by
  rw [fillDepths, size_foldl (fun _ _ => Array.size_setIfInBounds), Array.size_replicate]

theorem size_fillOpeners (size : Nat) (binders : List Binder) :
    (fillOpeners size binders).size = size := by
  have keeps (openers : Array (List (Nat × Nat))) (binder : Binder) :
      (addOpeners openers binder).size = openers.size :=
    size_foldl (fun _ _ => Array.size_modify) _ _
  rw [fillOpeners, size_foldl keeps, Array.size_replicate]

theorem depthOf_of_tied {around : Nat → List Nat} {binders : List Binder} {id : Nat}
    (tied : ∀ binder ∈ binders, binder.repetitions = around binder.id) :
    depthOf binders id = if binders.any (·.id == id) then (around id).length else 0 := by
  cases present : binders.any (·.id == id) with
  | true =>
      obtain ⟨binder, member, same⟩ := List.any_eq_true.mp present
      exact depthOf_eq tied ⟨binder, member, beq_iff_eq.mp same⟩
  | false =>
      rw [depthOf, List.find?_eq_none.mpr fun binder member => by
        simpa using List.any_eq_false.mp present binder member]
      rfl

theorem getElem?_foldl_modify (id : Nat) {repetitions : List Nat} (distinct : repetitions.Nodup)
    (level : Nat) (openers : Array (List (Nat × Nat))) (repetition : Nat) :
    ((repetitions.zipIdx level).foldl (fun openers place =>
        openers.modify place.1 (· ++ [(id, place.2)])) openers)[repetition]? =
      openers[repetition]?.map (· ++ ((repetitions.idxOf? repetition).map fun place =>
        (id, level + place)).toList) := by
  induction repetitions generalizing level openers with
  | nil => simp
  | cons first repetitions induction =>
      obtain ⟨absent, distinct⟩ := List.nodup_cons.mp distinct
      rw [List.zipIdx_cons, List.foldl_cons, induction distinct, Array.getElem?_modify,
        List.idxOf?_cons]
      by_cases same : first = repetition
      · subst same
        simp [List.idxOf?_eq_none_iff.mpr absent, Function.comp_def]
      · simp [same, Function.comp_def, Nat.add_assoc, Nat.add_comm 1]

/-- A variable that is entered under the repetitions around it comes behind the others there. -/
theorem getElem?_addOpeners {binder : Binder} (distinct : binder.repetitions.Nodup)
    (openers : Array (List (Nat × Nat))) (repetition : Nat) :
    (addOpeners openers binder)[repetition]? =
      openers[repetition]?.map (· ++ openedBy [binder] repetition) := by
  have single : openedBy [binder] repetition = ((binder.repetitions.idxOf? repetition).map
      fun place => (binder.id, 0 + place)).toList := by
    cases level : binder.repetitions.idxOf? repetition <;> simp [openedBy, level]
  rw [single]
  exact getElem?_foldl_modify binder.id distinct 0 openers repetition

theorem getElem?_foldl_addOpeners {binders : List Binder}
    (distinct : ∀ binder ∈ binders, binder.repetitions.Nodup)
    (openers : Array (List (Nat × Nat))) (repetition : Nat) :
    (binders.foldl addOpeners openers)[repetition]? =
      openers[repetition]?.map (· ++ openedBy binders repetition) := by
  induction binders generalizing openers with
  | nil => simp [openedBy]
  | cons binder binders induction =>
      obtain ⟨here, others⟩ := List.forall_mem_cons.mp distinct
      have split : openedBy (binder :: binders) repetition =
          openedBy [binder] repetition ++ openedBy binders repetition :=
        List.filterMap_append (l := [binder])
      rw [List.foldl_cons, induction others, getElem?_addOpeners here, split]
      simp [Function.comp_def]

end Matcher

/-! ## Branching -/

namespace Tree

variable {tree : Tree α}

theorem below_iff_child {id other : Nat} :
    tree.Below id other ↔ other = id ∨ ∃ child ∈ tree.children id, tree.Below child other := by
  constructor
  · intro below
    induction below with
    | here => exact .inl rfl
    | @child last next below member induction =>
        rcases induction with rfl | ⟨child, isChild, below⟩
        · exact .inr ⟨next, member, .here⟩
        · exact .inr ⟨child, isChild, .child below member⟩
  · rintro (rfl | ⟨child, isChild, below⟩)
    · exact .here
    · induction below with
      | here => exact .child .here isChild
      | child below member induction => exact .child induction member

def Branches (tree : Tree α) (id : Nat) : Prop :=
  ∃ other, tree.Below id other ∧ tree.isKind NodeKind.isRepetition other

theorem branches_iff {id : Nat} :
    tree.Branches id ↔
      (∃ child ∈ tree.children id, tree.Branches child) ∨
        tree.isKind NodeKind.isRepetition id := by
  constructor
  · intro ⟨other, below, isRepetition⟩
    rcases below_iff_child.mp below with rfl | ⟨child, isChild, below⟩
    · exact .inr isRepetition
    · exact .inl ⟨child, isChild, other, below, isRepetition⟩
  · intro branches
    rcases branches with ⟨child, isChild, other, below, isRepetition⟩ | isRepetition
    · exact ⟨other, below_iff_child.mpr (.inr ⟨child, isChild, below⟩), isRepetition⟩
    · exact ⟨id, .here, isRepetition⟩

end Tree

namespace Matcher

variable {tree : Tree α}

structure Swept (tree : Tree α) (first : Nat) (branching : Array Bool) : Prop where
  size : branching.size = tree.size
  right : ∀ id, first ≤ id → id < tree.size → (branching.getD id false ↔ tree.Branches id)

theorem Swept.step {id : Nat} {branching : Array Bool}
    (behind : ∀ child ∈ tree.children id, id < child ∧ child < tree.size)
    (swept : Swept tree (id + 1) branching) :
    Swept tree id (branching.setIfInBounds id
      (((tree.children id).any fun child => branching.getD child false) ||
        tree.isKind NodeKind.isRepetition id)) where
  size := by rw [Array.size_setIfInBounds, swept.size]
  right other later below := by
    rw [Array.getD_eq_getD_getElem?, Array.getElem?_setIfInBounds]
    by_cases here : id = other
    · subst here
      rw [if_pos rfl, if_pos (swept.size ▸ below), Tree.branches_iff, Option.getD_some,
        Bool.or_eq_true, List.any_eq_true]
      apply or_congr_left
      apply exists_congr
      intro child
      apply and_congr_right
      intro isChild
      obtain ⟨later, inside⟩ := behind child isChild
      exact swept.right child later inside
    · rw [if_neg here, ← Array.getD_eq_getD_getElem?]
      exact swept.right other (by omega) below

theorem swept_sweep
    (behind : ∀ id, ∀ child ∈ tree.children id, id < child ∧ child < tree.size) :
    Swept tree 0 (sweep tree) := by
  have sweeps : ∀ count first, first + count = tree.size →
      Swept tree first ((List.range' first count).foldr (fun id branching =>
        branching.setIfInBounds id
          (((tree.children id).any fun child => branching.getD child false) ||
            tree.isKind NodeKind.isRepetition id)) (Array.replicate tree.size false)) := by
    intro count
    induction count with
    | zero =>
        intro first all
        refine ⟨Array.size_replicate, fun id later below => ?_⟩
        omega
    | succ count induction =>
        intro first all
        rw [List.range'_succ, List.foldr_cons]
        exact (induction (first + 1) (by omega)).step (behind first)
  have swept := sweeps tree.size 0 (Nat.zero_add _)
  rwa [← List.range_eq_range'] at swept

theorem lt_of_mem_children {pattern : Pattern α} {options : Options} (id child : Nat)
    (isChild : child ∈ (Tree.build pattern options).children id) :
    id < child ∧ child < (Tree.build pattern options).size := by
  have isParent := ((Tree.copies_build pattern options).parents id child).mp isChild
  refine ⟨Tree.descends_ofPattern options.defaultGreed pattern child id isParent, ?_⟩
  obtain ⟨node, present, -⟩ := Option.bind_eq_some_iff.mp isParent
  exact (Array.getElem?_eq_some_iff.mp present).1

/-! ## All tables -/

/-- The tables are those that are filled in place. -/
structure Filled (matcher : Matcher α) (pattern : Pattern α) (options : Options) : Prop where
  tree : matcher.tree = Tree.fill pattern options
  depths : matcher.depths = fillDepths matcher.tree.size (collect matcher.tree)
  openers : matcher.openers = fillOpeners matcher.tree.size (collect matcher.tree)
  branching : matcher.branching = sweep matcher.tree
  names : matcher.names = firstOccurrences (occurrences (collect matcher.tree))
  repeatedNames : matcher.repeatedNames = repeatedOccurrences (occurrences (collect matcher.tree))

theorem eq_of_entries {Entry : Type} {table other : Array Entry} {size : Nat}
    (sizes : table.size = size ∧ other.size = size)
    (same : ∀ id < size, table[id]? = other[id]?) : table = other := by
  apply Array.ext_getElem?
  intro id
  by_cases inside : id < size
  · exact same id inside
  · rw [Array.getElem?_eq_none (by omega), Array.getElem?_eq_none (by omega)]

section

variable [BEq α] {pattern : Pattern α} {registry : Registry α} {options : Options}
variable {matcher : Matcher α} (compiled : compile pattern registry options = .ok matcher)
include compiled

theorem collect_of_compile : collect matcher.tree = matcher.outline.binders [] := by
  rw [(tables_of_compile compiled).1, collect_build, (compiled_of_compile compiled).outline]

theorem names_eq_of_compile :
    matcher.names = firstOccurrences (occurrences (collect matcher.tree)) ∧
      matcher.repeatedNames = repeatedOccurrences (occurrences (collect matcher.tree)) := by
  rw [collect_of_compile compiled]
  simp only [compile] at compiled
  split at compiled
  case h_1 => cases compiled
  case h_2 =>
    split at compiled
    case h_1 => cases compiled
    case h_2 => cases compiled; exact ⟨rfl, rfl⟩

/-- Filling the tables in place along the links of the nodes gives the tables of the matcher. -/
theorem filled_of_compile : matcher.Filled pattern options := by
  have accurate := accurate_of_compile compiled
  obtain ⟨branching, depths, openers⟩ := accurate.sizes
  obtain ⟨names, repeatedNames⟩ := names_eq_of_compile compiled
  have tied : ∀ binder ∈ collect matcher.tree,
      binder.repetitions = matcher.tree.repetitionsAround binder.id := by
    rw [collect_of_compile compiled]
    exact fun binder member => ((mem_binders_of_compile compiled).mp member).2
  have distinct : ∀ binder ∈ collect matcher.tree, binder.repetitions.Nodup := by
    intro binder member
    rw [tied binder member, accurate.tree]
    exact Tree.nodup_repetitionsAround pattern options binder.id
  have swept : Swept matcher.tree 0 (sweep matcher.tree) := by
    apply swept_sweep
    rw [accurate.tree]
    exact lt_of_mem_children
  refine ⟨?nodes, ?depths, ?openers, ?branching, names, repeatedNames⟩
  case nodes => rw [accurate.tree, Tree.fill_eq_build]
  case depths =>
    apply eq_of_entries ⟨depths, size_fillDepths _ _⟩
    intro id inside
    obtain ⟨node, listed⟩ := exists_listed_of_lt compiled inside
    rw [(entries_of_compile compiled listed).1, ← collect_of_compile compiled,
      depthOf_of_tied tied, fillDepths, getElem?_foldl_setIfInBounds tied (by simpa using inside),
      Array.getElem?_replicate, if_pos inside]
    split <;> rfl
  case openers =>
    apply eq_of_entries ⟨openers, size_fillOpeners _ _⟩
    intro id inside
    obtain ⟨node, listed⟩ := exists_listed_of_lt compiled inside
    rw [(entries_of_compile compiled listed).2.1, ← collect_of_compile compiled, fillOpeners,
      getElem?_foldl_addOpeners distinct, Array.getElem?_replicate, if_pos inside]
    rfl
  case branching =>
    apply eq_of_entries ⟨branching, swept.size⟩
    intro id inside
    have found := swept.right id (Nat.zero_le id) inside
    have known := accurate.branching id inside
    rw [Array.getD_eq_getD_getElem?, Array.getElem?_eq_getElem (swept.size ▸ inside),
      Option.getD_some] at found
    rw [Array.getElem?_eq_getElem (branching ▸ inside), Option.some.injEq] at known
    rw [Array.getElem?_eq_getElem (branching ▸ inside),
      Array.getElem?_eq_getElem (swept.size ▸ inside), Option.some.injEq, Bool.eq_iff_iff]
    exact known.trans found.symm

end

end Matcher

end Destructure
