import Destructure.Proofs.Matching.Consultations
import Destructure.Proofs.Matching.Interchange

/-!
Where grouping items makes no difference. A sequence that is not repeated may be replaced by its
items, and a sequence of a single item that takes one value may stand for the item where that is
repeated: every search ends with the same bindings and asks the same on the way.
-/

namespace Destructure

variable {α : Type}

namespace Pattern

/-! ## Sequences that are not repeated -/

inductive Ungroups : List (Pattern α) → List (Pattern α) → Prop
  | splice (before inner after : List (Pattern α)) (unrepeated : repetitionLeads after = false) :
      Ungroups (before ++ sequence inner :: after) (before ++ (inner ++ after))

section

variable [BEq α] {node : Pattern α} {parts : List (Pattern α)}

theorem replaces_sequence {inner : List (Pattern α)} (made : (sequence inner).Made) :
    Replaces [sequence inner] inner := by
  rcases (made_iff (sequence inner)).mp made with ⟨wellMade, madeItems⟩
  refine ⟨wellMade.filled, wellMade.founded, wellMade.placed.conditionsLast rfl, madeItems, ?_, ?_,
    ?_⟩
  · rw [List.any_cons, holdsCondition_eq (sequence inner)]
    simp [isCondition, Pattern.parts]
  · rw [List.flatMap_singleton, boundNames_eq (sequence inner)]
    rfl
  · rw [List.flatMap_singleton, shapeNames_of_parts (sequence inner)]
    exact fun name => id

theorem Ungroups.replaces (ungroups : Ungroups node.parts parts) (made : node.Made) :
    node.holdsItems ∧ Replaces node.parts parts := by
  generalize split : node.parts = items at ungroups
  cases ungroups with
  | splice before inner after unrepeated =>
      have inside : sequence inner ∈ node.parts := by simp [split]
      have madeInner := ((made_iff node).mp made).2 _ inside
      rw [← split]
      apply made.replaces split inside rfl (replaces_sequence madeInner) (List.cons_ne_nil _ _)
      · rintro first ⟨⟩ isCondition
        cases isCondition
      · rintro final ⟨⟩ final' isFinal' holds
        rw [holdsCondition_eq, Bool.or_eq_true]
        exact .inr (List.any_eq_true.mpr ⟨final', List.mem_of_mem_getLast? isFinal', holds⟩)
      · intro final _ final' _ leads
        rw [unrepeated] at leads
        cases leads

theorem Ungroups.rowTurns_eq (registry : Registry α) (greed : Greed)
    (ungroups : Ungroups node.parts parts) (made : node.Made) (way : Way α) :
    rowTurns registry greed node.parts way = rowTurns registry greed parts way := by
  generalize split : node.parts = items at ungroups
  cases ungroups with
  | splice before inner after unrepeated =>
      have inside : sequence inner ∈ node.parts := by simp [split]
      have wellMade := ((made_iff _).mp (((made_iff node).mp made).2 _ inside)).1
      have leads : repetitionLeads (inner ++ after) = false := by
        cases inner with
        | nil => exact absurd rfl wellMade.filled
        | cons first inner => exact wellMade.founded.isRepetition_eq_false
      have plain : repetitionLeads (sequence inner :: after) = false := rfl
      rw [rowTurns_append _ _ plain, rowTurns_append _ _ leads]
      congr 1
      funext later
      rw [rowTurns_unit _ _ rfl unrepeated, rowTurns_append _ _ unrepeated]
      rfl

end

/-! ## Sequences of a single item -/

inductive Brackets : List (Pattern α) → List (Pattern α) → Prop
  | bracket (before : List (Pattern α)) (unit : Pattern α) (minimum : Nat) (greed : Option Greed)
      (after : List (Pattern α)) (takes : unit.takesValue) :
      Brackets (before ++ unit :: repetition minimum greed :: after)
        (before ++ sequence [unit] :: repetition minimum greed :: after)

theorem Brackets.length_eq {items items' : List (Pattern α)} (brackets : Brackets items items') :
    items ≠ [] ∧ items'.length = items.length := by
  cases brackets with
  | bracket before unit minimum greed after takes => simp

section

variable [BEq α] {node unit : Pattern α} {parts : List (Pattern α)}

theorem made_sequence_singleton (made : unit.Made) (takes : unit.takesValue) :
    (sequence [unit]).Made := by
  rw [made_iff]
  refine ⟨⟨⟨?_, ?_, ?_, ?_⟩, founded_singleton takes, List.cons_ne_nil _ _⟩, ?_⟩
  · intro alternative
    cases alternative
  · intro alternative
    cases alternative
  · intro closed
    cases closed
  · intro _
    exact conditionsLast_singleton unit
  · exact List.forall_mem_singleton.mpr made

omit [BEq α] in
theorem holdsCondition_sequence_singleton :
    (sequence [unit]).holdsCondition = unit.holdsCondition := by
  rw [holdsCondition_eq]
  simp [isCondition, Pattern.parts]

theorem replaces_item (made : unit.Made) (takes : unit.takesValue) :
    Replaces [unit] [sequence [unit]] := by
  have inner := replaces_sequence (made_sequence_singleton made takes)
  refine ⟨List.cons_ne_nil _ _, ?_, ?_, ?_, inner.holdsCondition.symm, inner.boundNames.symm, ?_⟩
  · rw [founded_iff]
    simp [isRepetition]
  · exact conditionsLast_singleton _
  · exact List.forall_mem_singleton.mpr (made_sequence_singleton made takes)
  · rw [List.flatMap_singleton, shapeNames_of_parts (sequence [unit])]
    exact fun name => id

theorem Brackets.replaces (brackets : Brackets node.parts parts) (made : node.Made) :
    node.holdsItems ∧ Replaces node.parts parts := by
  generalize split : node.parts = items at brackets
  cases brackets with
  | bracket before unit minimum greed after takes =>
      have inside : repetition minimum greed ∈ node.parts := by simp [split]
      have madeUnit := ((made_iff node).mp made).2 unit (by simp [split])
      rw [← split]
      apply made.replaces split inside rfl (replaces_item madeUnit takes) (List.cons_ne_nil _ _)
      · rintro first ⟨⟩ isCondition
        rw [(plain_of_takesValue takes).2.2] at isCondition
        cases isCondition
      · rintro final ⟨⟩ final' ⟨⟩ holds
        exact holdsCondition_sequence_singleton.symm.trans holds
      · rintro final ⟨⟩ final' ⟨⟩ _ _
        rfl

theorem Brackets.restores (brackets : Brackets parts node.parts) (made : node.Made) :
    node.holdsItems ∧ Replaces node.parts parts := by
  generalize split : node.parts = items at brackets
  cases brackets with
  | bracket before unit minimum greed after takes =>
      have inside : repetition minimum greed ∈ node.parts := by simp [split]
      have madeUnit := ((made_iff node).mp made).2 (sequence [unit]) (by simp [split])
      rw [← split]
      apply made.replaces split inside rfl (replaces_sequence madeUnit) (List.cons_ne_nil _ _)
      · rintro first ⟨⟩ isCondition
        cases isCondition
      · rintro final ⟨⟩ final' ⟨⟩ holds
        exact holdsCondition_sequence_singleton.trans holds
      · rintro final ⟨⟩ final' ⟨⟩ _ _
        exact (plain_of_takesValue takes).1

theorem unitWays_sequence_singleton (registry : Registry α) (greed : Greed)
    (takes : unit.takesValue) :
    (sequence [unit]).unitWays registry greed = unit.unitWays registry greed := by
  funext way
  change rowWays registry greed [unit] way = unit.unitWays registry greed way
  rw [rowWays_unit _ _ (plain_of_takesValue takes).2.2 rfl]
  exact List.flatMap_singleton' _

theorem Brackets.rowTurns_eq (registry : Registry α) (greed : Greed)
    {items items' : List (Pattern α)} (brackets : Brackets items items') (way : Way α) :
    rowTurns registry greed items way = rowTurns registry greed items' way := by
  cases brackets with
  | bracket before unit minimum order after takes =>
      have plain : repetitionLeads (unit :: repetition minimum order :: after) = false :=
        (plain_of_takesValue takes).1
      have plain' :
          repetitionLeads (sequence [unit] :: repetition minimum order :: after) = false := rfl
      have names : (sequence [unit]).boundNames = unit.boundNames := by
        rw [boundNames_eq]
        exact List.flatMap_singleton _ _
      rw [rowTurns_append _ _ plain, rowTurns_append _ _ plain']
      congr 1
      funext later
      rw [rowTurns_repeated, rowTurns_repeated, unitWays_sequence_singleton _ _ takes, names]

end

end Pattern

namespace Matcher

/-- Where items are replaced by others that offer the same, the pattern goes on to compile, and no
search goes differently. -/
theorem search_agrees_of_somewhere [BEq α]
    {change : List (Pattern α) → List (Pattern α) → Prop} {pattern pattern' : Pattern α}
    {registry : Registry α} {options : Options} {matcher : Matcher α}
    (somewhere : Pattern.Somewhere change pattern pattern')
    (replaces : ∀ (node : Pattern α) parts, node.Made → change node.parts parts →
      node.holdsItems ∧ Pattern.Replaces node.parts parts)
    (offers : ∀ (node : Pattern α) parts, node.Made → change node.parts parts → ∀ way,
      Pattern.rowTurns registry options.defaultGreed node.parts way =
        Pattern.rowTurns registry options.defaultGreed parts way)
    (compiled : compile pattern registry options = .ok matcher) :
    ∃ matcher', compile pattern' registry options = .ok matcher' ∧
      ∀ guard value,
        bindingsOf (matcher'.search guard value) = bindingsOf (matcher.search guard value) ∧
        consultationsOf (matcher'.search guard value) =
          consultationsOf (matcher.search guard value) := by
  rcases compiles_of_somewhere somewhere replaces ⟨matcher, compiled⟩ with ⟨matcher', compiled'⟩
  refine ⟨matcher', compiled', fun guard value => ?_⟩
  have same := somewhere.interchangeable Turns.congruence_eq replaces offers
    (made_of_compile compiled)
  have row : Pattern.rowTurns registry options.defaultGreed [pattern] ⟨[], [value]⟩ =
      Pattern.rowTurns registry options.defaultGreed [pattern'] ⟨[], [value]⟩ :=
    same.rowTurns Turns.congruence_eq [] [] _
  have trials : pattern'.trial registry options guard value =
      pattern.trial registry options guard value := by
    rw [Pattern.trial, Pattern.trial, row]
  rcases search_eq_trial compiled guard value with ⟨result, consultations⟩
  rcases search_eq_trial compiled' guard value with ⟨result', consultations'⟩
  rw [result, result', consultations, consultations', trials]
  exact ⟨rfl, rfl⟩

/-- A sequence that is not repeated makes no difference: where its items stand in its place, the
pattern compiles too, and every search ends with the same bindings after the same consultations. -/
theorem ungrouped_search_agrees [BEq α] {pattern pattern' : Pattern α}
    (ungroups : Pattern.Somewhere Pattern.Ungroups pattern pattern') {registry : Registry α}
    {options : Options} {matcher : Matcher α}
    (compiled : compile pattern registry options = .ok matcher) :
    ∃ matcher', compile pattern' registry options = .ok matcher' ∧
      ∀ guard value,
        bindingsOf (matcher'.search guard value) = bindingsOf (matcher.search guard value) ∧
        consultationsOf (matcher'.search guard value) =
          consultationsOf (matcher.search guard value) :=
  search_agrees_of_somewhere ungroups (fun _ _ made changed => changed.replaces made)
    (fun _ _ made changed => changed.rowTurns_eq registry options.defaultGreed made) compiled

theorem ungrouped_condition_agrees : ∃ matcher matcher' : Matcher Nat,
    compile (.list [.bind "x", .sequence [.bind "y", .repetition 0 none, .condition fun bindings =>
        bindings.get? "x" == some (.symbol "a")]]) .standard {} = .ok matcher ∧
      compile (.list [.bind "x", .bind "y", .repetition 0 none, .condition fun bindings =>
        bindings.get? "x" == some (.symbol "a")]) .standard {} = .ok matcher' ∧
      bindingsOf (matcher'.search none (.list [.symbol "a", .symbol "b"])) =
        bindingsOf (matcher.search none (.list [.symbol "a", .symbol "b"])) ∧
      consultationsOf (matcher'.search none (.list [.symbol "b", .symbol "b"])) =
        consultationsOf (matcher.search none (.list [.symbol "b", .symbol "b"])) := by
  obtain ⟨matcher, compiled⟩ : ∃ matcher : Matcher Nat,
      compile (.list [.bind "x", .sequence [.bind "y", .repetition 0 none,
        .condition fun bindings => bindings.get? "x" == some (.symbol "a")]]) .standard {} =
          .ok matcher := ⟨_, rfl⟩
  have ungroups : Pattern.Somewhere Pattern.Ungroups
      (.list [.bind "x", .sequence [.bind "y", .repetition 0 none,
        .condition fun bindings => bindings.get? "x" == some (.symbol "a")]])
      (.list [.bind "x", .bind "y", .repetition 0 none,
        .condition fun bindings => bindings.get? "x" == some ((.symbol "a") : Value Nat)]) :=
    .here (.splice [.bind "x"] _ [] rfl)
  rcases ungrouped_search_agrees ungroups compiled with ⟨matcher', compiled', agrees⟩
  exact ⟨matcher, matcher', compiled, compiled', (agrees none _).1, (agrees none _).2⟩

/-- Repeating a sequence of a single item is repeating the item: with either, the pattern compiles
if it does with the other, and every search ends with the same bindings after the same
consultations. -/
theorem bracketed_unit_agrees [BEq α] {pattern pattern' : Pattern α}
    (brackets : Pattern.Somewhere Pattern.Brackets pattern pattern') (registry : Registry α)
    (options : Options) :
    ((∃ matcher, compile pattern registry options = .ok matcher) ↔
        ∃ matcher', compile pattern' registry options = .ok matcher') ∧
      ∀ matcher matcher', compile pattern registry options = .ok matcher →
        compile pattern' registry options = .ok matcher' → ∀ guard value,
          bindingsOf (matcher'.search guard value) = bindingsOf (matcher.search guard value) ∧
          consultationsOf (matcher'.search guard value) =
            consultationsOf (matcher.search guard value) := by
  have agrees : ∀ matcher, compile pattern registry options = .ok matcher → _ :=
    fun _ => search_agrees_of_somewhere brackets (fun _ _ made changed => changed.replaces made)
      fun _ _ _ changed => changed.rowTurns_eq registry options.defaultGreed
  refine ⟨⟨?_, ?_⟩, ?_⟩
  · rintro ⟨matcher, compiled⟩
    rcases agrees matcher compiled with ⟨matcher', compiled', -⟩
    exact ⟨matcher', compiled'⟩
  · apply compiles_of_somewhere (brackets.flip fun _ _ changed => changed.length_eq)
    exact fun _ _ made changed => changed.restores made
  · intro matcher matcher' compiled compiled'
    rcases agrees matcher compiled with ⟨other, compiledOther, same⟩
    cases compiled'.symm.trans compiledOther
    exact same

theorem bracketed_variable_agrees : ∃ matcher matcher' : Matcher Nat,
    compile (.list [.bind "x", .repetition 1 (some .lazy), .wildcard, .repetition 0 none])
        .standard {} = .ok matcher ∧
      compile (.list [.sequence [.bind "x"], .repetition 1 (some .lazy), .wildcard,
        .repetition 0 none]) .standard {} = .ok matcher' ∧
      ∀ guard, bindingsOf (matcher'.search guard (.list [.symbol "a", .symbol "b"])) =
        bindingsOf (matcher.search guard (.list [.symbol "a", .symbol "b"])) := by
  obtain ⟨matcher, compiled⟩ : ∃ matcher : Matcher Nat,
      compile (.list [.bind "x", .repetition 1 (some .lazy), .wildcard, .repetition 0 none])
        .standard {} = .ok matcher := ⟨_, rfl⟩
  have brackets : Pattern.Somewhere Pattern.Brackets
      (.list [.bind "x", .repetition 1 (some .lazy), .wildcard, .repetition 0 none])
      (.list [.sequence [(.bind "x" : Pattern Nat)], .repetition 1 (some .lazy), .wildcard,
        .repetition 0 none]) :=
    .here (.bracket [] (.bind "x") 1 (some .lazy) [.wildcard, .repetition 0 none] rfl)
  have agree := bracketed_unit_agrees brackets .standard {}
  rcases agree.1.mp ⟨matcher, compiled⟩ with ⟨matcher', compiled'⟩
  exact ⟨matcher, matcher', compiled, compiled', fun guard =>
    (agree.2 matcher matcher' compiled compiled' guard _).1⟩

end Matcher

end Destructure
