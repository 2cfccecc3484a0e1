import Destructure.Proofs.Matching.Correspondence

/-!
A search finds the first solution. The bindings that it ends with are those of the first way in
which the pattern matches, leaves nothing and binds equal names to equal values, and which the
guard accepts if there is one; where there is no such way, it ends without bindings.
-/

namespace Destructure

variable {α : Type}

theorem Trial.result_explore {β γ : Type} (goal : β → Trial α γ) (turns : Turns α β) :
    (explore goal turns).result =
      (Turns.outcomes turns).findSome? fun outcome => (goal outcome).result := by
  induction turns with
  | nil => rfl
  | cons turn turns induction =>
      cases turn with
      | asked consultation => exact induction
      | reached outcome =>
          rw [explore_reached, Turns.outcomes, List.findSome?_cons, ← induction, orElse]
          cases here : (goal outcome).result <;> simp [here]

theorem Turns.Mirrors.findSome?_eq {β γ δ : Type} {asks : Consultation α → Prop}
    {related : β → γ → Prop} {turns : Turns α β} {listed : List γ}
    (mirrors : Mirrors asks related turns listed) {result : β → Option δ}
    {result' : γ → Option δ}
    (agree : ∀ outcome item, related outcome item → result outcome = result' item) :
    (Turns.outcomes turns).findSome? result = listed.findSome? result' := by
  have pairs := mirrors.outcomes
  clear mirrors
  generalize Turns.outcomes turns = reached at pairs ⊢
  induction pairs with
  | nil => rfl
  | cons relates _ induction =>
      rw [List.findSome?_cons, List.findSome?_cons, agree _ _ relates, induction]

namespace Matcher

section

variable [BEq α] {matcher : Matcher α} {pattern : Pattern α} {registry : Registry α}
variable {options : Options} (compiled : matcher.Compiled pattern registry options)
include compiled

theorem Compiled.bindingsOf_search (guard : Option (Bindings α → Bool)) (value : Value α) :
    bindingsOf (matcher.search guard value) =
      (pattern.solutions registry options value).find? fun bindings =>
        guard.all fun accepts => accepts bindings := by
  rw [(search_eq compiled.settled guard value).1, searchTrial, Trial.result_explore,
    (compiled.mirrors_search value).findSome?_eq fun contents bound recorded =>
      congrArg Trial.result (compiled.finalTrial_eq recorded guard), Pattern.solutions]
  generalize Way.complete _ = ways
  induction ways with
  | nil => rfl
  | cons bound ways induction =>
      rw [List.findSome?_cons, List.filter_cons, induction]
      cases Named.agree bound with
      | false => rfl
      | true =>
          cases guard with
          | none => rfl
          | some accepts =>
              cases accepted : accepts ⟨Named.firsts bound⟩ <;>
                simp [accepted, Trial.after, Trial.success, Trial.failure]

end

/-- Matching yields the first solution, and matching with a guard the first solution that the guard
accepts. -/
theorem matches_first_solution [BEq α] {pattern : Pattern α} {registry : Registry α}
    {options : Options} {matcher : Matcher α}
    (compiled : compile pattern registry options = .ok matcher) (value : Value α) :
    matcher.matches? value = (pattern.solutions registry options value).head? ∧
      ∀ guard, matcher.matchGuarded? guard value =
        (pattern.solutions registry options value).find? guard := by
  have search := (compiled_of_compile compiled).bindingsOf_search
  refine ⟨?_, fun guard => search (some guard) value⟩
  rw [matches?, search none value]
  cases pattern.solutions registry options value <;> rfl

theorem matches_longest_first : ∃ matcher : Matcher Nat,
    compile (.list [.bind "x", .repetition 0 none, .bind "y", .repetition 0 none]) .standard {} =
      .ok matcher ∧
    matcher.matches? (.list [.symbol "a", .symbol "b"]) =
      some ⟨[("x", .list [.symbol "a", .symbol "b"]), ("y", .list [])]⟩ ∧
    matcher.matchGuarded? (fun bindings => bindings.get? "y" == some (.list [.symbol "b"]))
        (.list [.symbol "a", .symbol "b"]) =
      some ⟨[("x", .list [.symbol "a"]), ("y", .list [.symbol "b"])]⟩ := by
  obtain ⟨matcher, compiled⟩ : ∃ matcher : Matcher Nat,
      compile (.list [.bind "x", .repetition 0 none, .bind "y", .repetition 0 none])
        .standard {} = .ok matcher := ⟨_, rfl⟩
  refine ⟨matcher, compiled, ?_, ?_⟩
  · rw [(matches_first_solution compiled _).1]
    rfl
  · rw [(matches_first_solution compiled _).2]
    rfl

end Matcher

end Destructure
