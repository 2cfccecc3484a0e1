import Destructure.Proofs.Matching.Correspondence

/-!
Which names are bound where somebody looks at bindings. The result of a search and everything that
its guard is asked about bind all names of the pattern; conditions are asked about the names before
them.
-/

namespace Destructure.Matcher

variable {α : Type}

theorem result_finalTrial [BEq α] {matcher : Matcher α} {guard : Option (Bindings α → Bool)}
    {contents : Contents α} {bindings : Bindings α}
    (found : (matcher.finalTrial guard contents).result = some bindings) :
    bindings = matcher.bindingsIn contents := by
  rw [finalTrial] at found
  cases agree : matcher.namesAgree ⟨contents, #[], 0⟩ with
  | false => simp [agree, Trial.failure] at found
  | true =>
      cases guard with
      | none => simpa [agree, Trial.success] using found.symm
      | some accepts =>
          cases accepted : accepts (matcher.bindingsIn contents) with
          | false => simp [agree, accepted, Trial.after, Trial.failure] at found
          | true => simpa [agree, accepted, Trial.after, Trial.success] using found.symm

theorem consultation_finalTrial [BEq α] {matcher : Matcher α} {guard : Option (Bindings α → Bool)}
    {contents : Contents α} {question : Consultation α}
    (asked : question ∈ (matcher.finalTrial guard contents).consultations) :
    question.role = .guard ∧ question.bindings = matcher.bindingsIn contents := by
  rw [finalTrial] at asked
  cases agree : matcher.namesAgree ⟨contents, #[], 0⟩ with
  | false => simp [agree, Trial.failure] at asked
  | true =>
      cases guard with
      | none => simp [agree, Trial.success] at asked
      | some accepts =>
          have only : question =
              ⟨.guard, matcher.bindingsIn contents, accepts (matcher.bindingsIn contents)⟩ := by
            cases accepted : accepts (matcher.bindingsIn contents) <;>
              simpa [agree, accepted, Trial.after, Trial.success, Trial.failure] using asked
          exact only ▸ ⟨rfl, rfl⟩

section

variable [BEq α] {matcher : Matcher α} {pattern : Pattern α} {registry : Registry α}
variable {options : Options} (compiled : matcher.Compiled pattern registry options)
include compiled

theorem Compiled.names_places : matcher.outline.places.map Prod.fst = pattern.boundNames := by
  rw [compiled.outline]
  exact Outline.names_places_number options.defaultGreed pattern 0

theorem Compiled.variableNames_eq : matcher.variableNames = pattern.boundNames.eraseDups := by
  rw [variableNames, compiled.names, ← compiled.names_places]
  exact Named.names_firsts _

theorem Compiled.names_of_recorded {contents contents' : Contents α} {bound : Named (Value α)}
    (recorded : Recorded 0 matcher.outline.places contents [] contents' bound) :
    Named.names bound = pattern.boundNames := by
  rcases recorded with ⟨deposits, covers, -, rfl⟩
  rw [List.nil_append, ← compiled.names_places, ← covers, Named.names, List.map_map, List.map_map]
  rfl

theorem Compiled.names_firsts {contents contents' : Contents α} {bound : Named (Value α)}
    (recorded : Recorded 0 matcher.outline.places contents [] contents' bound) :
    Named.names (Named.firsts bound) = matcher.variableNames := by
  rw [Named.names_firsts, compiled.names_of_recorded recorded, compiled.variableNames_eq]

theorem Compiled.names_of_result {guard : Option (Bindings α → Bool)} {value : Value α}
    {bindings : Bindings α} (found : bindingsOf (matcher.search guard value) = some bindings) :
    bindings.names = matcher.variableNames := by
  rw [(search_eq compiled.settled guard value).1] at found
  rcases Trial.exists_of_result_explore found with ⟨contents, reached, final⟩
  rcases (compiled.mirrors_search value).exists_of_mem reached with ⟨bound, -, recorded⟩
  rw [result_finalTrial final, compiled.bindingsIn_of_recorded recorded]
  exact compiled.names_firsts recorded

/-- Whoever is asked about bindings in a search is a condition inside the pattern, or the guard,
which then sees all names. -/
theorem Compiled.asked_cases {guard : Option (Bindings α → Bool)} {value : Value α}
    {question : Consultation α} (asked : question ∈ consultationsOf (matcher.search guard value)) :
    matcher.AskedInside question ∨
      question.role = .guard ∧ question.bindings.names = matcher.variableNames := by
  rw [(search_eq compiled.settled guard value).2] at asked
  rcases Trial.mem_consultations_explore asked with within | ⟨contents, reached, final⟩
  · exact .inl ((compiled.mirrors_search value).questions question within)
  · rcases (compiled.mirrors_search value).exists_of_mem reached with ⟨bound, -, recorded⟩
    rcases consultation_finalTrial final with ⟨role, bindings⟩
    refine .inr ⟨role, ?_⟩
    rw [bindings, compiled.bindingsIn_of_recorded recorded]
    exact compiled.names_firsts recorded

end

/-- No name is missing: the bindings that a search ends with, and all bindings that the guard is
asked about, have exactly the names of the pattern, each once, in order of first occurrence. -/
theorem result_binds_every_name [BEq α] {pattern : Pattern α} {registry : Registry α}
    {options : Options} {matcher : Matcher α}
    (compiled : compile pattern registry options = .ok matcher)
    (guard : Option (Bindings α → Bool)) (value : Value α) :
    matcher.variableNames = pattern.boundNames.eraseDups ∧
      (∀ bindings, bindingsOf (matcher.search guard value) = some bindings →
        bindings.names = matcher.variableNames) ∧
      ∀ question ∈ consultationsOf (matcher.search guard value), question.role = .guard →
        question.bindings.names = matcher.variableNames := by
  have tables := compiled_of_compile compiled
  refine ⟨tables.variableNames_eq, fun bindings found => tables.names_of_result found, ?_⟩
  intro question asked isGuard
  rcases tables.asked_cases asked with ⟨isCondition, -⟩ | ⟨-, names⟩
  · rw [isGuard] at isCondition
    cases isCondition
  · exact names

theorem empty_repetition_binds_names : ∃ (matcher : Matcher Nat) (bindings : Bindings Nat),
    compile (.list [.list [.bind "x", .repetition 0 none], .repetition 0 none, .bind "y"])
      .standard {} = .ok matcher ∧
    bindingsOf (matcher.search none (.list [.symbol "a"])) = some bindings ∧
    bindings.names = ["x", "y"] := by
  obtain ⟨matcher, compiled⟩ : ∃ matcher : Matcher Nat,
      compile (.list [.list [.bind "x", .repetition 0 none], .repetition 0 none, .bind "y"])
        .standard {} = .ok matcher := ⟨_, rfl⟩
  obtain ⟨bindings, found⟩ : ∃ bindings,
      bindingsOf (matcher.search none (.list [.symbol "a"])) = some bindings := by
    cases compiled
    exact ⟨_, rfl⟩
  rcases result_binds_every_name compiled none (.list [.symbol "a"]) with ⟨names, ofResult, -⟩
  refine ⟨matcher, bindings, compiled, found, ?_⟩
  rw [ofResult bindings found, names]
  rfl

end Destructure.Matcher
