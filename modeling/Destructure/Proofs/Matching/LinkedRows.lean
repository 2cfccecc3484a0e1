import Destructure.Proofs.Matching.Compilation
import Destructure.Proofs.Matching.Surroundings

/-!
The rows that a search goes through, as the links of the table lead through them. The first item of
a row is the first child of its node, each item is followed by the one behind its link, and behind a
repetition a row goes on with the node that comes after the unit.

Main statement: `Matcher.rows_follow_links`.
-/

namespace Destructure

variable {α : Type}

open Outline (number numberAll leadingRepetition?)

namespace Tree

/-- From a number on, the links lead through the items of a row, to its end. -/
inductive Leads (tree : Tree α) : Option Nat → List (Outline α) → Prop where
  | nil : Leads tree none []
  | cons {item : Outline α} {items : List (Outline α)} (carries : tree.Carries item)
      (onward : Leads tree (tree.next? item.id) items) : Leads tree (some item.id) (item :: items)

namespace Leads

variable {tree : Tree α} {start : Option Nat} {item : Outline α} {items : List (Outline α)}

theorem start_eq (leads : tree.Leads start items) : start = leadingId? items := by
  cases leads <;> rfl

theorem of_cons (leads : tree.Leads start (item :: items)) :
    tree.Carries item ∧ tree.next? item.id = leadingId? items ∧
      tree.Leads (tree.next? item.id) items := by
  cases leads with
  | cons carries onward => exact ⟨carries, onward.start_eq, onward⟩

/-- The repetition of an item is the one that stands behind it in the row. -/
theorem repetitionOf?_eq (leads : tree.Leads start (item :: items)) :
    tree.repetitionOf? item.id = leadingRepetition? items := by
  obtain ⟨-, next, onward⟩ := leads.of_cons
  rw [repetitionOf?, next]
  cases items with
  | nil => rfl
  | cons behind others =>
      obtain ⟨carried, -⟩ := onward.of_cons
      rw [leadingId?, Option.filter, isKind, carried.1]
      rcases behind with ⟨id, kind, parts⟩
      cases kind <;> rfl

/-- Behind a unit and its repetition the row goes on with what comes after the unit. -/
theorem after_repetition {repetition minimum : Nat} {greed : Greed} {parts : List (Outline α)}
    (leads : tree.Leads start
      (item :: .node repetition (.repetition minimum greed) parts :: items)) :
    tree.repetitionOf? item.id = some repetition ∧ tree.Leads (tree.after? item.id) items := by
  have repeated : tree.repetitionOf? item.id = some repetition := leads.repetitionOf?_eq
  obtain ⟨-, -, behind⟩ := leads.of_cons
  rw [after?, repeated]
  exact ⟨rfl, behind.of_cons.2.2⟩

theorem after_item (leads : tree.Leads start (item :: items))
    (plain : leadingRepetition? items = none) :
    tree.repetitionOf? item.id = none ∧ tree.Leads (tree.after? item.id) items := by
  have single : tree.repetitionOf? item.id = none := leads.repetitionOf?_eq.trans plain
  rw [after?, single]
  exact ⟨rfl, leads.of_cons.2.2⟩

end Leads

/-! ## The table of a pattern -/

theorem leads_numbers (tree : Tree α) (defaultGreed : Greed) : Pattern.Compositional (α := α)
    (fun pattern => ∀ first parent previous next,
      tree.Seats defaultGreed parent previous next pattern first →
      ∀ node ∈ (number defaultGreed pattern first).1.preorder, node.kind.isOrdered →
        tree.Leads (leadingId? node.children) node.children)
    (fun patterns => ∀ first above ordered previous,
      tree.SeatsRow defaultGreed above ordered previous patterns first →
      (ordered → tree.Leads (leadingId? (numberAll defaultGreed patterns first).1)
        (numberAll defaultGreed patterns first).1) ∧
      ∀ node ∈ (numberAll defaultGreed patterns first).1.flatMap Outline.preorder,
        node.kind.isOrdered → tree.Leads (leadingId? node.children) node.children) where
  whole pattern ofParts first parent previous next seats := by
    obtain ⟨row, below⟩ := ofParts (first + 1) first _ none seats.parts
    rw [Outline.number_eq, Outline.preorder_node]
    exact List.forall_mem_cons.mpr ⟨row, below⟩
  nil first above ordered previous seats := ⟨fun _ => .nil, List.forall_mem_nil _⟩
  cons item items ofItem ofItems first above ordered previous seats := by
    obtain ⟨row, below⟩ := ofItems _ above _ _ seats.tail
    rw [Outline.numberAll_cons, List.flatMap_cons]
    refine ⟨fun isOrdered => ?_,
      List.forall_mem_append.mpr ⟨ofItem first _ _ _ seats.head, below⟩⟩
    subst isOrdered
    have carries : tree.Carries (number defaultGreed item first).1 :=
      (tree.carries_numbers defaultGreed).item item _ _ _ first seats.head _
        (Outline.mem_preorder _)
    have next := next?_eq seats.head.node?_eq
    refine .cons carries ?_
    rw [Outline.id_number, next]
    exact row rfl

end Tree

namespace Matcher

variable [BEq α] {pattern : Pattern α} {registry : Registry α} {options : Options}
variable {matcher : Matcher α}

/-- A search goes through rows as the links lead: it starts at the root, goes down to the first
child of a node whose parts stand in a row, and goes on with what comes after an item, whether the
item is repeated or not. -/
theorem rows_follow_links (compiled : compile pattern registry options = .ok matcher) :
    matcher.tree.Leads (some Tree.root) [matcher.outline] ∧
    (∀ node ∈ matcher.outline.preorder, node.kind.isOrdered →
      matcher.tree.Leads (matcher.tree.firstChild? node.id) node.children) ∧
    (∀ start unit repetition minimum greed parts items,
      matcher.tree.Leads start
        (unit :: .node repetition (.repetition minimum greed) parts :: items) →
      matcher.tree.repetitionOf? unit.id = some repetition ∧
        matcher.tree.Leads (matcher.tree.after? unit.id) items) ∧
    ∀ start item items, matcher.tree.Leads start (item :: items) →
      leadingRepetition? items = none →
      matcher.tree.repetitionOf? item.id = none ∧
        matcher.tree.Leads (matcher.tree.after? item.id) items := by
  have seats := Tree.seats_build pattern options
  have carries := (Tree.carries_numbers _ options.defaultGreed).item pattern _ _ _ 0 seats
  have rows := (Tree.leads_numbers _ options.defaultGreed).item pattern 0 _ _ _ seats
  have next : (Tree.build pattern options).next? 0 = none := Tree.next?_eq seats.node?_eq
  refine ⟨?_, ?_, fun _ _ _ _ _ _ _ leads => leads.after_repetition,
    fun _ _ _ leads plain => leads.after_item plain⟩
  all_goals rw [(tables_of_compile compiled).1, (compiled_of_compile compiled).outline]
  · have root : Tree.root = (Outline.ofPattern options.defaultGreed pattern).id :=
      (Outline.id_number _ _ _).symm
    rw [root]
    refine .cons (carries _ (Outline.mem_preorder _)) ?_
    rw [← root, Tree.root, next]
    exact .nil
  · intro node member ordered
    have first : (Tree.build pattern options).firstChild? node.id =
        Tree.leadingId? node.children := by
      rw [Tree.firstChild?, (carries node member).2]
      cases node.children <;> rfl
    rw [first]
    exact rows node member ordered

end Matcher

end Destructure
