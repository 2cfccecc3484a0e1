import Destructure.Proofs.Matching.Settlement

/-!
The calls that make up a search. A call matches something and goes on with what is to happen after
it, which is a call again. A call that fails leaves the slots, their trail and the result as it
found them, and so does finding out whether an item matches by itself, whatever the outcome. So
whoever is asked about bindings sees those of the attempt that is under way and no others.
-/

namespace Destructure

variable {α : Type}

open Slots (Same)

/-- A step that carries out a trial leaves no trace where it fails. -/
theorem Realizes.untouched {step : Step α} {goal : Contents α → Trial α (Ending α)}
    (realizes : Realizes Same step goal) {state : SearchState α} (failed : (step state).1 = false) :
    Same state.slots (step state).2.slots ∧ (step state).2.found = state.found := by
  rcases realizes state with ⟨-, conclusion⟩
  cases result : (goal state.slots.entries).result with
  | none =>
      simp only [result] at conclusion
      exact conclusion.2
  | some ending =>
      simp only [result] at conclusion
      rw [failed] at conclusion
      cases conclusion.1

namespace Matcher

variable [BEq α] {matcher : Matcher α}

def HoldsItems (matcher : Matcher α) (items : List (Outline α)) : Prop :=
  items <:+ [matcher.outline] ∨ ∃ node ∈ matcher.outline.preorder, items <:+ node.children

/-- What a search may be about to do, given the guard that is asked at its end. -/
inductive Call (matcher : Matcher α) (guard : Option (Bindings α → Bool)) : Step α → Prop where
  /-- All items have matched. -/
  | finish : Call matcher guard (matcher.finish guard)
  /-- An item has matched that is tried by itself. -/
  | accept : Call matcher guard Step.accept
  /-- No values may be left of those that were taken apart. -/
  | exhausted {next : Step α} (after : Call matcher guard next) (left : List (Value α)) :
      Call matcher guard (Step.exhausted next left)
  | row {items : List (Outline α)} {next : Continuation α} (holds : matcher.HoldsItems items)
      (after : ∀ left, Call matcher guard (next left)) (values : List (Value α)) :
      Call matcher guard (matcher.matchRow items values next)
  | one {item : Outline α} {next : Step α} (inside : item ∈ matcher.outline.preorder)
      (after : Call matcher guard next) (value : Value α) :
      Call matcher guard (matcher.matchOne item value next)
  | all {items : List (Outline α)} {next : Step α} (holds : matcher.HoldsItems items)
      (after : Call matcher guard next) (value : Value α) :
      Call matcher guard (matcher.matchAll items value next)
  /-- The counts of a repetition are tried. -/
  | repetition {unit : Outline α} {id minimum : Nat} {greed : Greed}
      {parts items : List (Outline α)} {next : Continuation α}
      (holds : matcher.HoldsItems (unit :: .node id (.repetition minimum greed) parts :: items))
      (after : ∀ left, Call matcher guard (next left)) (values : List (Value α)) :
      Call matcher guard (matcher.repeatUnit id minimum greed
        (if unit.kind.isSequence then .inl (matcher.matchParts unit)
        else .inr (matcher.branches unit.id, matcher.matchOne unit)) values next)
  /-- An item takes each of the values that a count gives it. -/
  | each {item : Outline α} {next : Step α} (inside : item ∈ matcher.outline.preorder)
      (after : Call matcher guard next) (values : List (Value α)) :
      Call matcher guard (Step.eachValue (matcher.matchOne item) values next)
  /-- A sequence is gone through as often as a count says. -/
  | passes {item : Outline α} {next : Continuation α} (inside : item ∈ matcher.outline.preorder)
      (after : ∀ left, Call matcher guard (next left)) (count : Nat) (values : List (Value α)) :
      Call matcher guard (Step.passes (matcher.matchParts item) count values next)

theorem SettledRow.of_suffix {items others : List (Outline α)} (settled : matcher.SettledRow others)
    (suffix : items <:+ others) : matcher.SettledRow items := by
  rcases suffix with ⟨before, rfl⟩
  induction before with
  | nil => exact settled
  | cons item before induction => exact induction settled.2.2

theorem settled_inside (matcher : Matcher α) : Outline.Compositional
    (fun outline => matcher.Settled outline → ∀ node ∈ outline.preorder, matcher.Settled node)
    (fun outlines => matcher.SettledRow outlines →
      ∀ node ∈ outlines.flatMap Outline.preorder, matcher.Settled node) where
  node id kind children ofChildren settled node member := by
    rw [Outline.preorder_node] at member
    rcases List.mem_cons.mp member with rfl | below
    · exact settled
    · exact ofChildren settled node below
  nil _ _ member := nomatch member
  cons item items ofItem ofItems settled node member := by
    rw [List.flatMap_cons] at member
    rcases List.mem_append.mp member with here | later
    · exact ofItem settled.1 node here
    · exact ofItems settled.2.2 node later

theorem HoldsItems.settled {items : List (Outline α)} (holds : matcher.HoldsItems items)
    (settled : matcher.Settled matcher.outline) : matcher.SettledRow items := by
  rcases holds with suffix | ⟨⟨id, kind, children⟩, inside, suffix⟩
  · apply SettledRow.of_suffix _ suffix
    exact ⟨settled, fun leads => absurd leads Bool.false_ne_true, trivial⟩
  · have below : matcher.Settled (.node id kind children) :=
      matcher.settled_inside.item _ settled _ inside
    exact SettledRow.of_suffix below suffix

/-- Every call of a search carries out a trial. -/
theorem Call.realizes {guard : Option (Bindings α → Bool)} {step : Step α}
    (call : matcher.Call guard step) (settled : matcher.Settled matcher.outline) :
    ∃ goal, Realizes Same step goal := by
  have ofItem {item : Outline α} (inside : item ∈ matcher.outline.preorder) :=
    matcher.realizes_items.item item (matcher.settled_inside.item _ settled item inside)
  induction call with
  | finish => exact ⟨_, matcher.realizes_finish guard⟩
  | accept => exact ⟨_, Step.realizes_accept⟩
  | exhausted after left induction =>
      rcases induction with ⟨goal, realizes⟩
      exact ⟨_, Step.realizes_exhausted realizes left⟩
  | row holds after values induction =>
      choose goals realizes using induction
      exact ⟨_, matcher.realizes_items.row _ (holds.settled settled) values _ goals realizes⟩
  | one inside after value induction =>
      rcases induction with ⟨goal, realizes⟩
      exact ⟨_, (ofItem inside).1 value _ goal realizes⟩
  | all holds after value induction =>
      rcases induction with ⟨goal, realizes⟩
      have settledItems := holds.settled settled
      exact ⟨_, matcher.realizes_matchAll _
        (fun item member => (matcher.realizes_items.item item (settledItems.of_mem member)).1)
        value _ goal realizes⟩
  | @repetition unit id minimum greed parts items next holds after values induction =>
      choose goals realizes using induction
      rcases holds.settled settled with ⟨settledUnit, oneWay, -⟩
      rcases matcher.realizes_items.item unit settledUnit with ⟨realizesItem, realizesParts⟩
      cases sequence : unit.kind.isSequence with
      | true =>
          have trial := @realizes_repeatUnit _ matcher id minimum greed values next goals realizes
            (.inl (matcher.matchParts unit)) (.inl (matcher.partTurns unit)) realizesParts
          exact ⟨_, trial⟩
      | false =>
          have trial := @realizes_repeatUnit _ matcher id minimum greed values next goals realizes
            (.inr (matcher.branches unit.id, matcher.matchOne unit))
            (.inr (matcher.itemTurns unit)) ⟨realizesItem, oneWay rfl sequence⟩
          exact ⟨_, trial⟩
  | each inside after values induction =>
      rcases induction with ⟨goal, realizes⟩
      exact ⟨_, Step.realizes_eachValue (ofItem inside).1 realizes values⟩
  | passes inside after count values induction =>
      choose goals realizes using induction
      exact ⟨_, Step.realizes_passes (ofItem inside).2 count values _ goals realizes⟩

theorem call_search (matcher : Matcher α) (guard : Option (Bindings α → Bool)) (value : Value α) :
    ∃ step, matcher.Call guard step ∧
      matcher.search guard value = step (SearchState.start matcher.tree.size) :=
  ⟨_, .row (.inl (List.suffix_refl _)) (.exhausted .finish) [value], rfl⟩

/-- A call that fails leaves the slots, their trail and the result as it found them; finding out
whether an item matches by itself leaves them so in any case. A search is made of such calls. It
ends with the result, and asks about the bindings, of a search in which every alternative starts
from contents of its own and nothing is ever taken back. -/
theorem failed_call_leaves_no_trace {pattern : Pattern α} {registry : Registry α}
    {options : Options} (compiled : compile pattern registry options = .ok matcher)
    (guard : Option (Bindings α → Bool)) :
    (∀ step, matcher.Call guard step → ∀ state, (step state).1 = false →
      Same state.slots (step state).2.slots ∧ (step state).2.found = state.found) ∧
    (∀ item ∈ matcher.outline.preorder, ∀ value state,
      let ended := Step.isolated (matcher.matchOne item value Step.accept) state
      Same state.slots ended.2.slots ∧ ended.2.found = state.found) ∧
    ∀ value,
      (∃ step, matcher.Call guard step ∧
        matcher.search guard value = step (SearchState.start matcher.tree.size)) ∧
      bindingsOf (matcher.search guard value) = (matcher.searchTrial guard value).result ∧
      consultationsOf (matcher.search guard value) =
        (matcher.searchTrial guard value).consultations := by
  have settled := (compiled_of_compile compiled).settled
  refine ⟨?_, ?_, fun value => ⟨matcher.call_search guard value, search_eq settled guard value⟩⟩
  · intro step call state failed
    rcases call.realizes settled with ⟨goal, realizes⟩
    exact realizes.untouched failed
  · intro item inside value state
    have realizes := matcher.realizes_items.item item
      (matcher.settled_inside.item _ settled item inside)
    rcases isolated_eq (realizes.1 value _ _ Step.realizes_accept) state with
      ⟨later, ended, same, found, -⟩
    simp only [ended]
    exact ⟨same, found⟩

/-- A guard that rejects every split of the values leaves the slots as blank as they were. -/
theorem rejected_search_leaves_slots_blank : ∃ matcher : Matcher Nat,
    compile (.list [.bind "x", .repetition 0 none, .bind "y", .repetition 0 none]) .standard {} =
      .ok matcher ∧
    (consultationsOf (matcher.search (some fun _ => false) (.list [.symbol "a"]))).map
        (fun question => question.bindings) =
      [⟨[("x", .list [.symbol "a"]), ("y", .list [])]⟩,
        ⟨[("x", .list []), ("y", .list [.symbol "a"])]⟩] ∧
    Same (SearchState.start matcher.tree.size).slots
      (matcher.search (some fun _ => false) (.list [.symbol "a"])).2.slots := by
  obtain ⟨matcher, compiled⟩ : ∃ matcher : Matcher Nat,
      compile (.list [.bind "x", .repetition 0 none, .bind "y", .repetition 0 none])
        .standard {} = .ok matcher := ⟨_, rfl⟩
  rcases failed_call_leaves_no_trace compiled (some fun _ => false) with ⟨untouched, -, searches⟩
  rcases searches (.list [.symbol "a"]) with ⟨⟨step, call, search⟩, -⟩
  have failed : (matcher.search (some fun _ => false) (.list [.symbol "a"])).1 = false := by
    cases compiled
    rfl
  refine ⟨matcher, compiled, ?_, ?_⟩
  · cases compiled
    rfl
  · rw [search] at failed ⊢
    exact (untouched step call _ failed).1

end Matcher

end Destructure
