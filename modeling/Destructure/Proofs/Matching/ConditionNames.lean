import Destructure.Proofs.Matching.BoundNames

/-!
What conditions see. A condition stands at the end of each row around it, but operands of a
conjunction do not stand in a row: a later operand may bind names behind a condition in an earlier
one. This is the only way in which a name can be bound behind a condition, and the only one in which
a condition sees less than all names.
-/

namespace Destructure

variable {α : Type}

namespace Pattern

def BindsBehindCondition (nodes : List (Pattern α)) : Prop :=
  ∃ before condition after, nodes = before ++ condition :: after ∧ condition.isCondition ∧
    after.filterMap boundName? ≠ []

/-- Behind an operand that holds a condition there is one that binds a name. -/
def LateOperand (operands : List (Pattern α)) : Prop :=
  ∃ earlier operand later, operands = earlier ++ operand :: later ∧ operand.holdsCondition ∧
    later.flatMap boundNames ≠ []

theorem BindsBehindCondition.of_infix {nodes others : List (Pattern α)} (inside : nodes <:+: others)
    (binds : BindsBehindCondition nodes) : BindsBehindCondition others := by
  rcases inside with ⟨front, back, rfl⟩
  rcases binds with ⟨before, condition, after, rfl, isCondition, bound⟩
  refine ⟨front ++ before, condition, after ++ back, by simp, isCondition, ?_⟩
  rw [List.filterMap_append]
  exact List.append_ne_nil_of_left_ne_nil bound _

theorem infix_preorder : Compositional (α := α)
    (fun pattern => ∀ node ∈ pattern.preorder, node.preorder <:+: pattern.preorder)
    (fun patterns => ∀ node ∈ patterns.flatMap preorder,
      node.preorder <:+: patterns.flatMap preorder) where
  whole pattern ofParts node member := by
    rw [preorder_eq pattern] at member
    rcases List.mem_cons.mp member with rfl | inside
    · exact List.infix_refl _
    · rw [preorder_eq pattern]
      exact (ofParts node inside).trans (List.suffix_cons _ _).isInfix
  nil node member := nomatch member
  cons item items ofItem ofItems node member := by
    rw [List.flatMap_cons] at member ⊢
    rcases List.mem_append.mp member with here | later
    · exact (ofItem node here).trans (List.prefix_append _ _).isInfix
    · exact (ofItems node later).trans (List.suffix_append _ _).isInfix

theorem LateOperand.cons {operands : List (Pattern α)} (late : LateOperand operands)
    (operand : Pattern α) : LateOperand (operand :: operands) := by
  rcases late with ⟨earlier, holder, later, rfl, rest⟩
  exact ⟨operand :: earlier, holder, later, rfl, rest⟩

/-- A row that starts with a condition at its end binds nothing. -/
theorem ConditionsLast.boundNames_eq_nil {items : List (Pattern α)} (last : ConditionsLast items)
    (leads : ∀ item ∈ items.head?, item.isCondition) : items.flatMap boundNames = [] := by
  induction items with
  | nil => rfl
  | cons item items induction =>
      have isCondition := leads item rfl
      have others := induction last.2
        (last.1 (by rw [holdsCondition_eq, isCondition, Bool.true_or]))
      cases item with
      | condition accepts => exact others
      | _ => cases isCondition

theorem ConditionsLast.not_lateOperand {items : List (Pattern α)} (last : ConditionsLast items) :
    ¬LateOperand items := by
  induction items with
  | nil =>
      rintro ⟨earlier, operand, later, split, -⟩
      cases earlier <;> cases split
  | cons item items induction =>
      rintro ⟨earlier, operand, later, split, holds, bound⟩
      cases earlier with
      | nil =>
          rcases List.cons.inj split with ⟨rfl, rfl⟩
          exact bound (last.2.boundNames_eq_nil (last.1 holds))
      | cons first earlier =>
          rcases List.cons.inj split with ⟨-, rfl⟩
          exact induction last.2 ⟨earlier, operand, later, rfl, holds, bound⟩

theorem LateOperand.holdsCondition {operands : List (Pattern α)} (late : LateOperand operands) :
    operands.any Pattern.holdsCondition := by
  rcases late with ⟨earlier, operand, later, rfl, holds, -⟩
  rw [List.any_append, List.any_cons, holds, Bool.true_or, Bool.or_true]

/-- Where two lists of nodes follow each other, the condition and the name are both in one of them,
or the condition is in the first and the name in the second. -/
theorem BindsBehindCondition.append_cases {nodes others : List (Pattern α)}
    (binds : BindsBehindCondition (nodes ++ others)) :
    BindsBehindCondition nodes ∨ BindsBehindCondition others ∨
      nodes.any isCondition ∧ others.filterMap boundName? ≠ [] := by
  rcases binds with ⟨before, condition, after, split, isCondition, bound⟩
  rcases List.append_eq_append_iff.mp split with ⟨rest, rfl, later⟩ | ⟨rest, rfl, later⟩
  · exact .inr (.inl ⟨rest, condition, after, later, isCondition, bound⟩)
  · cases rest with
    | nil => exact .inr (.inl ⟨[], condition, after, later.symm, isCondition, bound⟩)
    | cons first rest =>
        rcases List.cons.inj later with ⟨rfl, rfl⟩
        by_cases here : rest.filterMap boundName? = []
        · refine .inr (.inr ⟨by simp [isCondition], ?_⟩)
          change (rest ++ others).filterMap boundName? ≠ [] at bound
          rwa [List.filterMap_append, here, List.nil_append] at bound
        · exact .inl ⟨before, condition, rest, rfl, isCondition, here⟩

/-- Only behind an operand of a conjunction is a name bound behind a condition. -/
theorem exists_lateOperand : Compositional (α := α)
    (fun pattern => pattern.Orderly → BindsBehindCondition pattern.preorder →
      ∃ operands, and operands ∈ pattern.preorder ∧ LateOperand operands)
    (fun patterns => (∀ pattern ∈ patterns, pattern.Orderly) →
      BindsBehindCondition (patterns.flatMap preorder) →
      LateOperand patterns ∨
        ∃ operands, and operands ∈ patterns.flatMap preorder ∧ LateOperand operands) where
  whole pattern ofParts orderly binds := by
    have placed := orderly.wellPlaced
    rw [preorder_eq] at binds ⊢
    change BindsBehindCondition ([pattern] ++ pattern.parts.flatMap preorder) at binds
    -- The root alone binds nothing behind itself, and as a condition it has no parts.
    rcases binds.append_cases with
      ⟨before, condition, after, split, -, bound⟩ | below | ⟨isCondition, bound⟩
    · cases before with
      | nil =>
          rcases List.cons.inj split with ⟨-, rfl⟩
          cases bound rfl
      | cons first before => simp at split
    · rcases ofParts (fun part member => orderly.parts member) below with
        late | ⟨operands, inside, late⟩
      · have unconditional := late.holdsCondition
        cases pattern with
        | and operands => exact ⟨operands, List.mem_cons_self, late⟩
        | deconstruct shape items => exact absurd late (placed.conditionsLast rfl).not_lateOperand
        | keyed shape entries => exact absurd late (placed.conditionsLast rfl).not_lateOperand
        | sequence items => exact absurd late (placed.conditionsLast rfl).not_lateOperand
        | or operands =>
            have none := placed.unconditional rfl
            rw [holdsCondition_eq, unconditional, Bool.or_true] at none
            cases none
        | not operands =>
            have none := placed.unconditional rfl
            rw [holdsCondition_eq, unconditional, Bool.or_true] at none
            cases none
        | _ => cases unconditional
      · exact ⟨operands, List.mem_cons_of_mem _ inside, late⟩
    · cases pattern with
      | condition accepts => cases bound rfl
      | _ => cases isCondition
  nil _ binds := by
    rcases binds with ⟨before, condition, after, split, -⟩
    cases before <;> cases split
  cons item items ofItem ofItems orderly binds := by
    rw [List.flatMap_cons] at binds ⊢
    rcases binds.append_cases with here | later | ⟨holds, bound⟩
    · rcases ofItem (orderly item List.mem_cons_self) here with ⟨operands, inside, late⟩
      exact .inr ⟨operands, List.mem_append_left _ inside, late⟩
    · rcases ofItems (fun other member => orderly other (List.mem_cons_of_mem _ member)) later with
        late | ⟨operands, inside, late⟩
      · exact .inl (late.cons item)
      · exact .inr ⟨operands, List.mem_append_right _ inside, late⟩
    · rw [filterMap_flatMap_preorder] at bound
      exact .inl ⟨[], item, items, rfl, holds, bound⟩

theorem LateOperand.bindsBehindCondition {operands : List (Pattern α)}
    (late : LateOperand operands) : BindsBehindCondition (operands.flatMap preorder) := by
  rcases late with ⟨earlier, operand, later, rfl, holds, bound⟩
  rcases List.any_eq_true.mp holds with ⟨condition, member, isCondition⟩
  rcases List.append_of_mem member with ⟨before, after, split⟩
  refine ⟨earlier.flatMap preorder ++ before, condition, after ++ later.flatMap preorder, ?_,
    isCondition, ?_⟩
  · rw [List.flatMap_append, List.flatMap_cons, split]
    simp
  · rw [List.filterMap_append, filterMap_flatMap_preorder]
    exact List.append_ne_nil_of_right_ne_nil _ bound

/-- In a pattern without mistakes a name is bound behind a condition if and only if a conjunction
binds it in an operand behind the one with the condition. -/
theorem bindsBehindCondition_iff {pattern : Pattern α} (orderly : pattern.Orderly) :
    BindsBehindCondition pattern.preorder ↔
      ∃ operands, and operands ∈ pattern.preorder ∧ LateOperand operands := by
  refine ⟨exists_lateOperand.item pattern orderly, ?_⟩
  rintro ⟨operands, member, late⟩
  have inside := infix_preorder.item pattern _ member
  rw [preorder_eq (and operands)] at inside
  exact late.bindsBehindCondition.of_infix ((List.suffix_cons _ _).isInfix.trans inside)

end Pattern

namespace Matcher

theorem Compiled.exists_condition [BEq α] {matcher : Matcher α} {pattern : Pattern α}
    {registry : Registry α} {options : Options}
    (compiled : matcher.Compiled pattern registry options) {question : Consultation α}
    (inside : matcher.AskedInside question) :
    ∃ before condition after, pattern.preorder = before ++ condition :: after ∧
      condition.isCondition ∧
      question.bindings.names = (before.filterMap Pattern.boundName?).eraseDups := by
  rcases inside with ⟨-, before, condition, after, split, isCondition, names⟩
  have kinds := (Outline.kinds_numbers options.defaultGreed).item pattern 0
  change (Outline.ofPattern options.defaultGreed pattern).preorder.map Outline.kind = _ at kinds
  rw [← compiled.outline, split, List.map_append, List.map_cons] at kinds
  rcases List.map_eq_append_iff.mp kinds.symm with ⟨front, rest, equal, sameFront, sameRest⟩
  rcases List.map_eq_cons_iff.mp sameRest with ⟨here, back, rfl, sameHere, -⟩
  refine ⟨front, here, back, equal, ?_, ?_⟩
  · rw [← sameHere] at isCondition
    cases here with
    | condition accepts => rfl
    | _ => cases isCondition
  · rw [names, Outline.names_of_kinds sameFront.symm]

/-- A condition is asked about exactly the names that are bound before it in the pattern. These are
all names unless a conjunction binds a name in an operand behind the one with the condition, which
is the only case in which a pattern with a name behind a condition is accepted. -/
theorem condition_sees_names_before_it [BEq α] {pattern : Pattern α} {registry : Registry α}
    {options : Options} {matcher : Matcher α}
    (compiled : compile pattern registry options = .ok matcher) :
    (Pattern.BindsBehindCondition pattern.preorder ↔
      ∃ operands, .and operands ∈ pattern.preorder ∧ Pattern.LateOperand operands) ∧
    ∀ guard value, ∀ question ∈ consultationsOf (matcher.search guard value),
      question.role = .condition →
      (∃ before condition after, pattern.preorder = before ++ condition :: after ∧
        condition.isCondition ∧
        question.bindings.names = (before.filterMap Pattern.boundName?).eraseDups) ∧
      ((¬∃ operands, .and operands ∈ pattern.preorder ∧ Pattern.LateOperand operands) →
        question.bindings.names = matcher.variableNames) := by
  have tables := compiled_of_compile compiled
  have late := Pattern.bindsBehindCondition_iff tables.orderly
  refine ⟨late, ?_⟩
  intro guard value question asked isCondition
  have inside : matcher.AskedInside question := by
    rcases tables.asked_cases asked with inside | ⟨isGuard, -⟩
    · exact inside
    · rw [isGuard] at isCondition
      cases isCondition
  rcases tables.exists_condition inside with ⟨before, condition, after, split, holds, names⟩
  refine ⟨⟨before, condition, after, split, holds, names⟩, ?_⟩
  intro none
  have unbound : after.filterMap Pattern.boundName? = [] := by
    apply Classical.byContradiction
    exact fun bound => none (late.mp ⟨before, condition, after, split, holds, bound⟩)
  have all : pattern.boundNames = before.filterMap Pattern.boundName? := by
    rw [Pattern.boundNames, split, List.filterMap_append, List.filterMap_cons, unbound]
    cases condition with
    | condition accepts => exact List.append_nil _
    | _ => cases holds
  rw [names, tables.variableNames_eq, all]

theorem last_condition_sees_all_names : ∃ matcher : Matcher Nat,
    compile (.list [.bind "x", .repetition 0 none, .bind "y",
      .condition fun bindings => bindings.size == 2]) .standard {} = .ok matcher ∧
    ∀ guard value, ∀ question ∈ consultationsOf (matcher.search guard value),
      question.role = .condition → question.bindings.names = ["x", "y"] := by
  obtain ⟨matcher, compiled⟩ : ∃ matcher : Matcher Nat,
      compile (.list [.bind "x", .repetition 0 none, .bind "y",
        .condition fun bindings => bindings.size == 2]) .standard {} = .ok matcher := ⟨_, rfl⟩
  refine ⟨matcher, compiled, ?_⟩
  intro guard value question asked isCondition
  rcases condition_sees_names_before_it compiled with ⟨-, seen⟩
  rw [(seen guard value question asked isCondition).2]
  · cases compiled
    rfl
  · rintro ⟨operands, member, -⟩
    simp [Pattern.preorder_eq, Pattern.list, Pattern.parts] at member

/-- A condition inside an operand does not see the names of the operands behind it, though the
pattern is accepted. -/
theorem condition_misses_later_operand : ∃ matcher : Matcher Nat,
    compile (.and [.list [.bind "x", .condition fun bindings => bindings.contains "y"],
      .bind "y"]) .standard {} = .ok matcher ∧
    matcher.variableNames = ["x", "y"] ∧
    (consultationsOf (matcher.search none (.list [.symbol "a"]))).map
        (fun question => (question.role, question.bindings)) =
      [(.condition, ⟨[("x", .symbol "a")]⟩)] :=
  ⟨_, rfl, rfl, rfl⟩

end Matcher

end Destructure
