import Destructure.Proofs.Matching.Prospect

/-!
What it means that a step of the search carries out a trial. It asks what is asked in the trial;
with a result it leaves slots from which the trail leads back, and without one it leaves the slots
as it found them, or, if it relies on its caller for that, at least a way back.
-/

namespace Destructure

variable {α : Type}

abbrev Ending (α : Type) := Contents α × Option (Bindings α)

structure SearchState.Similar (state later : SearchState α) : Prop where
  slots : Slots.Same state.slots later.slots
  found : later.found = state.found
  consultations : later.consultations = state.consultations

instance : Trans (@Slots.Same α) Slots.Same Slots.Same := ⟨Slots.Same.trans⟩

instance : Trans (@Slots.Same α) Slots.Extends Slots.Extends :=
  ⟨fun same extended => (Slots.Extends.of_same same).trans extended⟩

theorem SearchState.Similar.refl (state : SearchState α) : SearchState.Similar state state :=
  ⟨.refl _, rfl, rfl⟩

def Concludes (left : Slots α → Slots α → Prop) (state : SearchState α)
    (trial : Trial α (Ending α)) (ended : Bool × SearchState α) : Prop :=
  ended.2.consultations = trial.consultations.reverse ++ state.consultations ∧
    match trial.result with
    | some (contents, answer) =>
      ended.1 = true ∧ ended.2.slots.entries = contents ∧
        Slots.Extends state.slots ended.2.slots ∧ ended.2.found = answer.or state.found
    | none => ended.1 = false ∧ left state.slots ended.2.slots ∧ ended.2.found = state.found

/-- A step carries out a trial that depends on what the slots hold. -/
def Realizes (left : Slots α → Slots α → Prop) (step : Step α)
    (goal : Contents α → Trial α (Ending α)) : Prop :=
  ∀ state, Concludes left state (goal state.slots.entries) (step state)

namespace Concludes

variable {state later : SearchState α} {trial first second : Trial α (Ending α)}
  {ended : Bool × SearchState α}

theorem loosely (concludes : Concludes Slots.Same state trial ended) :
    Concludes Slots.Extends state trial ended := by
  rcases concludes with ⟨asked, conclusion⟩
  refine ⟨asked, ?_⟩
  cases result : trial.result with
  | some ending => simpa [result] using conclusion
  | none =>
      simp only [result] at conclusion ⊢
      exact ⟨conclusion.1, .of_same conclusion.2.1, conclusion.2.2⟩

theorem of_extends (extended : Slots.Extends state.slots later.slots)
    (found : later.found = state.found)
    (consultations : later.consultations = state.consultations)
    (concludes : Concludes Slots.Extends later trial ended) :
    Concludes Slots.Extends state trial ended := by
  rcases concludes with ⟨asked, conclusion⟩
  refine ⟨by rw [asked, consultations], ?_⟩
  cases result : trial.result with
  | some ending =>
      simp only [result, found] at conclusion ⊢
      rcases conclusion with ⟨matched, contents, extended', answer⟩
      exact ⟨matched, contents, extended.trans extended', answer⟩
  | none =>
      simp only [result, found] at conclusion ⊢
      rcases conclusion with ⟨failed, extended', found'⟩
      exact ⟨failed, extended.trans extended', found'⟩

theorem of_similar {left : Slots α → Slots α → Prop} [Trans Slots.Same left left]
    (similar : SearchState.Similar state later) (concludes : Concludes left later trial ended) :
    Concludes left state trial ended := by
  rcases concludes with ⟨asked, conclusion⟩
  refine ⟨by rw [asked, similar.consultations], ?_⟩
  cases result : trial.result with
  | some ending =>
      simp only [result, similar.found] at conclusion ⊢
      rcases conclusion with ⟨matched, contents, extended, answer⟩
      exact ⟨matched, contents, (Slots.Extends.of_same similar.slots).trans extended, answer⟩
  | none =>
      simp only [result, similar.found] at conclusion ⊢
      rcases conclusion with ⟨failed, rest, found⟩
      exact ⟨failed, Trans.trans similar.slots rest, found⟩

theorem failure (similar : SearchState.Similar state later) :
    Concludes Slots.Same state Trial.failure (false, later) :=
  ⟨similar.consultations, rfl, similar.slots, similar.found⟩

theorem similar_of_failed (concludes : Concludes Slots.Same state trial (false, later)) :
    SearchState.Similar { state with consultations := later.consultations } later := by
  rcases concludes with ⟨_, conclusion⟩
  cases result : trial.result with
  | some ending => simp [result] at conclusion
  | none =>
      simp only [result] at conclusion
      exact ⟨conclusion.2.1, conclusion.2.2, rfl⟩

theorem orElse_of_matched {left : Slots α → Slots α → Prop}
    (concludes : Concludes left state first (true, later)) :
    Concludes left state (first.orElse second) (true, later) := by
  rcases concludes with ⟨asked, conclusion⟩
  cases result : first.result with
  | none => simp [result] at conclusion
  | some ending =>
      refine ⟨by simpa [Trial.orElse, result] using asked, ?_⟩
      simpa [Trial.orElse, result] using conclusion

theorem orElse_of_failed {left left' : Slots α → Slots α → Prop}
    (failed : Concludes left' state first (false, later))
    (concludes : Concludes left { state with consultations := later.consultations } second ended) :
    Concludes left state (first.orElse second) ended := by
  rcases failed with ⟨asked, conclusion⟩
  rcases concludes with ⟨asked', conclusion'⟩
  cases result : first.result with
  | some ending => simp [result] at conclusion
  | none =>
      have split : first.orElse second =
          ⟨first.consultations ++ second.consultations, second.result⟩ := by
        simp [Trial.orElse, result]
      rw [split]
      refine ⟨?_, conclusion'⟩
      rw [asked', List.reverse_append, List.append_assoc, ← asked]

theorem after {left : Slots α → Slots α → Prop} {role : Role} {bindings : Bindings α}
    {accepted : Bool}
    (concludes : Concludes left
      { state with consultations := ⟨role, bindings, accepted⟩ :: state.consultations }
      trial ended) :
    Concludes left state (trial.after ⟨role, bindings, accepted⟩) ended := by
  rcases concludes with ⟨asked, conclusion⟩
  exact ⟨by simp [Trial.after, asked], conclusion⟩

theorem afterAll {left : Slots α → Slots α → Prop} {questions : List (Consultation α)}
    (concludes : Concludes left
      { state with consultations := questions.reverse ++ state.consultations } trial ended) :
    Concludes left state (trial.afterAll questions) ended := by
  rcases concludes with ⟨asked, conclusion⟩
  exact ⟨by simp [Trial.afterAll, asked], conclusion⟩

/-- Taking back what a step recorded makes up for a step that only leaves a way back. -/
theorem rollBack (concludes : Concludes Slots.Extends state trial (false, later)) :
    Concludes Slots.Same state trial (false, later.rollBack state.mark) := by
  rcases concludes with ⟨asked, conclusion⟩
  refine ⟨asked, ?_⟩
  cases result : trial.result with
  | some ending => simp [result] at conclusion
  | none =>
      simp only [result] at conclusion ⊢
      exact ⟨trivial, conclusion.2.1.undo_same.symm, conclusion.2.2⟩

end Concludes

theorem Realizes.loosely {step : Step α} {goal : Contents α → Trial α (Ending α)}
    (realizes : Realizes Slots.Same step goal) : Realizes Slots.Extends step goal :=
  fun state => (realizes state).loosely

end Destructure
