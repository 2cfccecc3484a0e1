import Mathlib
import Destructure.Proofs.Matching.Compilation
import Destructure.Proofs.Matching.Notes
import Destructure.Proofs.Matching.SafeSearch
import Destructure.Proofs.Matching.Splits

/-!
The search never falls back. In a search for a pattern that compiles no decomposer is missing, no
node is in a wrong place, and no list is missed, neither when something is recorded nor when it is
taken back. So what a search reports as no match is one.
-/

namespace Destructure

variable {α : Type}

theorem Slots.Retraces.missed_le {slots later : Slots α} (retraces : Retraces slots later) :
    later.missed ≤ slots.missed := by
  rw [← retraces.undo_eq]
  exact (later.grows_undoLatest _).missed

theorem Keeps.missed_le {after : Contents α → Prop} {state : SearchState α}
    {ended : Bool × SearchState α} (keeps : Keeps Eq after state ended) :
    ended.2.slots.missed ≤ state.slots.missed := by
  cases outcome : ended.1 with
  | true => exact (keeps.matched outcome).1.missed_le
  | false => exact Nat.le_of_eq (congrArg Slots.missed (keeps.failed outcome)).symm

namespace Matcher

variable [BEq α]

/-- A pattern compiles exactly if validation accepts it and there is a decomposer for each of its
shapes. Otherwise the error is that of validation or else the first shape without a decomposer. In
a search for a pattern that compiles every number that is looked up is in range, a row and a
repetition in it split the values that they are given at places in them, and no note is taken, at no
time since no call takes one back. -/
theorem search_never_falls_back (pattern : Pattern α) (registry : Registry α) (options : Options) :
    ((∃ matcher, compile pattern registry options = .ok matcher) ↔
      (Tree.build pattern options).malformed? options = none ∧
        ∀ name ∈ pattern.shapeNames, registry.contains name) ∧
    (∀ malformed, (Tree.build pattern options).malformed? options = some malformed →
      compile pattern registry options = .error (.malformed malformed)) ∧
    (∀ name, (Tree.build pattern options).malformed? options = none →
      pattern.shapeNames.find? (fun name => !registry.contains name) = some name →
      compile pattern registry options = .error (.unimplementedShape name)) ∧
    ∀ matcher, compile pattern registry options = .ok matcher →
      matcher.Equipped ∧
      (∀ minimum greed (values : List (Value α)),
        ∀ count ∈ Greed.counts greed minimum values.length, count ≤ values.length) ∧
      (∀ (unit : Value α → Step α) values (state : SearchState α), ∃ count ≤ values.length,
        (Step.stretch unit values [(state.mark, values)] state).1.map Prod.snd =
          ((List.range (count + 1)).map fun passed => values.drop passed).reverse) ∧
      (∀ items, Step.Within (matcher.matchRow items)) ∧
      (∀ (unit : Outline α) id minimum greed, Step.Within (matcher.repeatUnit id minimum greed
        (if unit.kind.isSequence then .inl (matcher.matchParts unit)
        else .inr (matcher.branches unit.id, matcher.matchOne unit)))) ∧
      ∀ guard,
        (∀ step, matcher.Call guard step → ∀ state, SearchState.Grows state (step state).2) ∧
        ∀ value,
          (∃ step, matcher.Call guard step ∧
            matcher.search guard value = step (SearchState.start matcher.tree.size)) ∧
          (matcher.search guard value).2.anomalies = [] ∧
          (matcher.search guard value).2.slots.missed = 0 ∧
          (matcher.search guard value).2.slots.entries.size = matcher.tree.size := by
  refine ⟨compile_eq_ok_iff, fun _ => compile_of_malformed,
    fun _ accepted missing => compile_of_find? accepted missing, ?_⟩
  intro matcher compiled
  have accepted := (compile_eq_ok_iff.mp ⟨matcher, compiled⟩).1
  have formed := (Pattern.malformed?_eq_none_iff options pattern).mp accepted
  refine ⟨equipped_of_compile compiled formed, ?_, Step.stretch_places, matcher.within_items.row,
    matcher.within_repetition, ?_⟩
  · exact fun _ _ _ _ member => (Greed.mem_counts.mp member).2
  · intro guard
    refine ⟨fun _ call => call.growing, fun value => ?_⟩
    have keeps := (compiled_of_compile compiled).search_keeps formed.steady formed.takesValue
      guard value
    rcases matcher.call_search guard value with ⟨step, call, search⟩
    refine ⟨⟨step, call, search⟩, keeps.anomalies, Nat.eq_zero_of_le_zero keeps.missed_le, ?_⟩
    have grows := call.growing (SearchState.start matcher.tree.size)
    rw [← search] at grows
    rw [grows.slots.size]
    exact Array.size_replicate

/-- The guard is asked about a list within a list, and its rejection makes the search take both
back. -/
theorem rejected_nested_search_takes_no_note : ∃ (matcher : Matcher Nat)
    (ended : Bool × SearchState Nat),
    compile (.list [.sequence [.bind "k", .list [.bind "v", .repetition 0 none]],
      .repetition 0 none]) .standard {} = .ok matcher ∧
    matcher.search (some fun _ => false) (.list [.symbol "a", .list [.nil, .nil]]) = ended ∧
    ended.1 = false ∧
    (consultationsOf ended).map Consultation.bindings =
      [⟨[("k", .list [.symbol "a"]), ("v", .list [.list [.nil, .nil]])]⟩] ∧
    ended.2.slots.entries.toList = List.replicate 7 none ∧ ended.2.slots.trail.toList = [] ∧
    ended.2.anomalies = [] ∧ ended.2.slots.missed = 0 := by
  obtain ⟨matcher, compiled⟩ : ∃ matcher : Matcher Nat,
      compile (.list [.sequence [.bind "k", .list [.bind "v", .repetition 0 none]],
        .repetition 0 none]) .standard {} = .ok matcher := ⟨_, rfl⟩
  rcases search_never_falls_back (α := Nat) (.list [.sequence [.bind "k",
    .list [.bind "v", .repetition 0 none]], .repetition 0 none]) .standard {} with
    ⟨-, -, -, searches⟩
  rcases searches matcher compiled with ⟨-, -, -, -, -, quiet⟩
  rcases quiet (some fun _ => false) with ⟨-, ends⟩
  rcases ends (.list [.symbol "a", .list [.nil, .nil]]) with ⟨-, anomalies, missed, -⟩
  refine ⟨matcher, _, compiled, rfl, ?_, ?_, ?_, ?_, anomalies, missed⟩
  all_goals cases compiled; cbv

end Matcher

end Destructure
