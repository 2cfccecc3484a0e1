import Destructure.Proofs.Matching.Realization
import Destructure.Proofs.Matching.Tables

/-!
A compiled matcher keeps what the search relies on: where its tables say that a unit contains no
repetition, the unit matches each value in one way at most and asks nothing. Without repetitions
there is nothing to choose, and a unit that is repeated holds no condition.
-/

namespace Destructure

variable {α : Type}

open Outline (leadingRepetition? number numberAll)

def Outline.Unconditional (nodes : List (Outline α)) : Prop :=
  ∀ node ∈ nodes, node.kind.isCondition = false

namespace Turns

def Single {β : Type} (turns : Turns α β) : Prop := ∃ outcome : Option β, turns = ofOption outcome

variable {β γ : Type}

theorem Single.nil : Single ([] : Turns α β) := ⟨none, rfl⟩

theorem Single.reached (outcome : β) : Single ([.reached outcome] : Turns α β) :=
  ⟨some outcome, rfl⟩

theorem Single.andThen {turns : Turns α β} {next : β → Turns α γ} (single : Single turns)
    (singleNext : ∀ outcome, Single (next outcome)) : Single (Turns.andThen turns next) := by
  rcases single with ⟨outcome, rfl⟩
  cases outcome with
  | none => exact .nil
  | some outcome => simpa [ofOption] using singleNext outcome

theorem Single.eq_ofOption {turns : Turns α β} (single : Single turns) :
    turns = ofOption (outcomes turns).head? := by
  rcases single with ⟨outcome, rfl⟩
  cases outcome <;> rfl

theorem Single.leading_eq {turns : Turns α β} (single : Single turns) : leading turns = [] := by
  rcases single with ⟨outcome, rfl⟩
  cases outcome <;> rfl

theorem Single.verdict {turns : Turns α β} (none : leading turns = []) (expected : Bool)
    (outcome : γ) : Single (Turns.verdict expected outcome turns) := by
  rw [Turns.verdict, none]
  split
  · exact .nil
  · exact .reached outcome

theorem Single.exhausted {turns : Turns α (Place α)} (single : Single turns) :
    Single (Turns.exhausted turns) := by
  apply single.andThen
  intro place
  split
  · exact .reached place.contents
  · exact .nil

end Turns

namespace Matcher

open Turns (Single)

theorem leadingRepetition?_of_someBranch {outlines : List (Outline α)}
    (plain : Outline.someBranch outlines = false) : leadingRepetition? outlines = none := by
  cases leads : leadingRepetition? outlines with
  | none => rfl
  | some repetition =>
      rcases Outline.leadingRepetition?_eq_some leads with ⟨minimum, greed, parts, items, rfl⟩
      simp [Outline.someBranch, Outline.branches, NodeKind.isRepetition] at plain

/-- Without repetitions and conditions there is one way at most. -/
theorem single_turns [BEq α] (matcher : Matcher α) : Outline.Compositional
    (fun item => item.branches = false → Outline.Unconditional item.preorder →
      (∀ value contents, Single (matcher.itemTurns item value contents)) ∧
        ∀ values contents, Single (matcher.partTurns item values contents))
    (fun items => Outline.someBranch items = false →
      Outline.Unconditional (items.flatMap Outline.preorder) →
      (∀ values contents, Single (matcher.rowTurns items values contents)) ∧
        (∀ value contents, Single (matcher.allTurns items value contents)) ∧
        ∀ value contents, Turns.leading (matcher.anyTurns items value contents) = []) where
  node id kind children ofChildren plain unconditional := by
    rw [Outline.branches, Bool.or_eq_false_iff] at plain
    obtain ⟨row, all, any⟩ := ofChildren plain.2 (by
      rw [Outline.preorder_node] at unconditional
      exact fun node member => unconditional node (List.mem_cons_of_mem _ member))
    refine ⟨?_, row⟩
    intro value contents
    cases kind with
    | test test =>
        rw [itemTurns]
        split
        · exact .reached contents
        · exact .nil
    | wildcard => exact .reached contents
    | bind name => exact .reached _
    | deconstruct shape =>
        rw [itemTurns]
        split
        · exact .nil
        · exact (row _ contents).exhausted
    | keyed shape keys =>
        rw [itemTurns]
        split
        · exact .nil
        · exact (row _ contents).exhausted
    | and => exact all value contents
    | or => exact .verdict (any value contents) true contents
    | not => exact .verdict (any value contents) false contents
    | _ => exact .nil
  nil _ _ := ⟨fun _ contents => .reached _, fun _ contents => .reached contents, fun _ _ => rfl⟩
  cons item items ofItem ofItems plain unconditional := by
    rw [Outline.someBranch, Bool.or_eq_false_iff] at plain
    rw [List.flatMap_cons] at unconditional
    obtain ⟨single, part⟩ := ofItem plain.1
      fun node member => unconditional node (List.mem_append_left _ member)
    obtain ⟨row, all, any⟩ := ofItems plain.2
      fun node member => unconditional node (List.mem_append_right _ member)
    refine ⟨?_, ?_, ?_⟩
    · intro values contents
      rw [rowTurns_plain matcher (leadingRepetition?_of_someBranch plain.2)]
      have here : item.kind.isCondition = false := by
        apply unconditional item
        rcases item with ⟨id, kind, children⟩
        rw [Outline.preorder_node]
        exact List.mem_append_left _ List.mem_cons_self
      split
      case h_1 => simp_all [NodeKind.isCondition]
      case h_2 => exact .nil
      case h_3 => exact (part values contents).andThen fun place => row place.left place.contents
      case h_4 =>
        split
        · exact .nil
        · exact (single _ contents).andThen fun contents => row _ contents
    · exact fun value contents => (single value contents).andThen (all value)
    · intro value contents
      rw [anyTurns, Turns.leading_append, (single value contents).leading_eq, any value contents]
      split <;> rfl

theorem unconditional_number (defaultGreed : Greed) {pattern : Pattern α}
    (none : pattern.holdsCondition = false) (first : Nat) :
    Outline.Unconditional (number defaultGreed pattern first).1.preorder := by
  intro node member
  have kinds := (Outline.kinds_numbers defaultGreed).item pattern first
  have present : node.kind ∈ pattern.preorder.map (Pattern.nodeKind defaultGreed) :=
    kinds ▸ List.mem_map_of_mem member
  rcases List.mem_map.mp present with ⟨part, inside, equal⟩
  have plain := List.any_eq_false.mp none part inside
  rw [← equal]
  cases part with
  | condition accepts => simp [Pattern.isCondition] at plain
  | _ => rfl

theorem leads_numberAll (defaultGreed : Greed) (patterns : List (Pattern α)) (first : Nat) :
    (leadingRepetition? (numberAll defaultGreed patterns first).1).isSome =
      Pattern.repetitionLeads patterns := by
  cases patterns with
  | nil => rfl
  | cons pattern patterns =>
      rw [Outline.numberAll_cons, Outline.number_eq]
      cases pattern <;> rfl

theorem leadingRepetition?_numberAll (defaultGreed : Greed) {patterns : List (Pattern α)}
    (leads : Pattern.repetitionLeads patterns = false) (first : Nat) :
    leadingRepetition? (numberAll defaultGreed patterns first).1 = none := by
  rw [← Option.not_isSome_iff_eq_none, leads_numberAll, leads]
  exact Bool.false_ne_true

/-- The search can rely on the table of a compiled matcher. -/
theorem settled_numbers [BEq α] (matcher : Matcher α) (defaultGreed : Greed) :
    Pattern.Compositional (α := α)
      (fun pattern => ∀ first, pattern.Orderly →
        (∀ node ∈ (number defaultGreed pattern first).1.preorder,
          matcher.branches node.id = node.branches) →
        matcher.Settled (number defaultGreed pattern first).1)
      (fun patterns => ∀ first, (∀ pattern ∈ patterns, pattern.Orderly) →
        Pattern.UnitsUnconditional patterns →
        (∀ node ∈ (numberAll defaultGreed patterns first).1.flatMap Outline.preorder,
          matcher.branches node.id = node.branches) →
        matcher.SettledRow (numberAll defaultGreed patterns first).1) where
  whole pattern ofParts first orderly table := by
    rw [Outline.number_eq, Outline.preorder_node] at table
    rw [Outline.number_eq, Settled]
    exact ofParts (first + 1) (fun part member => orderly.parts member)
      orderly.wellPlaced.unitsUnconditional fun node member =>
        table node (List.mem_cons_of_mem _ member)
  nil _ _ _ _ := trivial
  cons item items ofItem ofItems first orderly units table := by
    rw [Outline.numberAll_cons, List.flatMap_cons] at table
    rw [Outline.numberAll_cons, SettledRow]
    have tableItem : ∀ node ∈ (number defaultGreed item first).1.preorder,
        matcher.branches node.id = node.branches :=
      fun node member => table node (List.mem_append_left _ member)
    refine ⟨?_, ?_, ?_⟩
    · exact ofItem first (orderly item List.mem_cons_self) tableItem
    · intro leads _ plain
      rw [leads_numberAll] at leads
      have root : (number defaultGreed item first).1 ∈
          (number defaultGreed item first).1.preorder := by
        rw [Outline.number_eq, Outline.preorder_node]
        exact List.mem_cons_self
      rw [tableItem _ root] at plain
      have single := ((matcher.single_turns).item _ plain
        (unconditional_number defaultGreed (units.1 leads) first)).1
      exact ⟨_, fun value contents => (single value contents).eq_ofOption⟩
    · exact ofItems _ (fun other member => orderly other (List.mem_cons_of_mem _ member)) units.2
        fun node member => table node (List.mem_append_right _ member)

theorem Compiled.settled [BEq α] {matcher : Matcher α} {pattern : Pattern α}
    {registry : Registry α} {options : Options}
    (compiled : matcher.Compiled pattern registry options) : matcher.Settled matcher.outline := by
  have table := compiled.branches
  rw [compiled.outline] at table ⊢
  exact (matcher.settled_numbers options.defaultGreed).item pattern 0 compiled.orderly table

end Matcher

end Destructure
