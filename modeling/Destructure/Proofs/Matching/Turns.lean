import Destructure.Matching.Search

/-!
What a search comes upon, in order: questions that it has to ask, and outcomes from which it goes
on. A list of turns is fixed before anything is tried. Exploring it tries the outcomes one after
another until one of them leads to a result, and asks the questions that stand before it.
-/

namespace Destructure

inductive Turn (α β : Type) where
  | asked (consultation : Consultation α)
  | reached (outcome : β)

abbrev Turns (α β : Type) := List (Turn α β)

namespace Turns

variable {α β γ δ : Type}

def andThen : Turns α β → (β → Turns α γ) → Turns α γ
  | [], _ => []
  | .asked consultation :: turns, next => .asked consultation :: andThen turns next
  | .reached outcome :: turns, next => next outcome ++ andThen turns next

def outcomes : Turns α β → List β
  | [] => []
  | .asked _ :: turns => outcomes turns
  | .reached outcome :: turns => outcome :: outcomes turns

def questions : Turns α β → List (Consultation α)
  | [] => []
  | .asked consultation :: turns => consultation :: questions turns
  | .reached _ :: turns => questions turns

def leading : Turns α β → List (Consultation α)
  | [] => []
  | .asked consultation :: turns => consultation :: leading turns
  | .reached _ :: _ => []

/-- The questions before the first outcome, and then one outcome if it is as expected whether
there is any. -/
def verdict (expected : Bool) (outcome : γ) (turns : Turns α β) : Turns α γ :=
  (leading turns).map .asked ++
    if (outcomes turns).isEmpty = expected then [] else [.reached outcome]

@[simp] theorem andThen_nil (next : β → Turns α γ) : andThen [] next = [] := rfl

@[simp] theorem andThen_asked (consultation : Consultation α) (turns : Turns α β)
    (next : β → Turns α γ) :
    andThen (.asked consultation :: turns) next = .asked consultation :: andThen turns next := rfl

@[simp] theorem andThen_reached (outcome : β) (turns : Turns α β) (next : β → Turns α γ) :
    andThen (.reached outcome :: turns) next = next outcome ++ andThen turns next := rfl

@[simp] theorem andThen_append (first second : Turns α β) (next : β → Turns α γ) :
    andThen (first ++ second) next = andThen first next ++ andThen second next := by
  induction first with
  | nil => rfl
  | cons turn turns induction => cases turn <;> simp [induction]

theorem andThen_assoc (turns : Turns α β) (next : β → Turns α γ) (last : γ → Turns α δ) :
    andThen (andThen turns next) last =
      andThen turns fun outcome => andThen (next outcome) last := by
  induction turns with
  | nil => rfl
  | cons turn turns induction => cases turn <;> simp [induction]

@[simp] theorem outcomes_append (first second : Turns α β) :
    outcomes (first ++ second) = outcomes first ++ outcomes second := by
  induction first with
  | nil => rfl
  | cons turn turns induction => cases turn <;> simp [outcomes, induction]

theorem outcomes_flatMap {ι : Type} (choices : List ι) (turns : ι → Turns α β) :
    outcomes (choices.flatMap turns) = choices.flatMap fun choice => outcomes (turns choice) := by
  induction choices with
  | nil => rfl
  | cons choice choices induction =>
      rw [List.flatMap_cons, outcomes_append, induction, List.flatMap_cons]

@[simp] theorem outcomes_andThen (turns : Turns α β) (next : β → Turns α γ) :
    outcomes (andThen turns next) =
      (outcomes turns).flatMap fun outcome => outcomes (next outcome) := by
  induction turns with
  | nil => rfl
  | cons turn turns induction => cases turn <;> simp [outcomes, induction]

@[simp] theorem outcomes_map_asked (consultations : List (Consultation α)) :
    outcomes (consultations.map (fun consultation => (.asked consultation : Turn α β))) = [] := by
  induction consultations with
  | nil => rfl
  | cons consultation consultations induction => exact induction

@[simp] theorem outcomes_verdict (expected : Bool) (outcome : γ) (turns : Turns α β) :
    outcomes (verdict expected outcome turns) =
      if (outcomes turns).isEmpty = expected then [] else [outcome] := by
  rw [verdict, outcomes_append, outcomes_map_asked]
  split <;> rfl

@[simp] theorem questions_append (first second : Turns α β) :
    questions (first ++ second) = questions first ++ questions second := by
  induction first with
  | nil => rfl
  | cons turn turns induction => cases turn <;> simp [questions, induction]

theorem forall_questions_andThen {property : Consultation α → Prop} {turns : Turns α β}
    {next : β → Turns α γ} (first : ∀ question ∈ questions turns, property question)
    (later : ∀ outcome ∈ outcomes turns, ∀ question ∈ questions (next outcome),
      property question) :
    ∀ question ∈ questions (andThen turns next), property question := by
  induction turns with
  | nil =>
      intro question member
      cases member
  | cons turn turns induction =>
      intro question member
      cases turn with
      | asked consultation =>
          rcases List.mem_cons.mp member with rfl | behind
          · exact first question List.mem_cons_self
          · exact induction (fun other among => first other (List.mem_cons_of_mem _ among)) later
              question behind
      | reached outcome =>
          rw [andThen_reached, questions_append] at member
          rcases List.mem_append.mp member with here | behind
          · exact later outcome List.mem_cons_self question here
          · exact induction first
              (fun other among => later other (List.mem_cons_of_mem _ among)) question behind

theorem mem_questions_of_mem_leading {turns : Turns α β} {question : Consultation α}
    (member : question ∈ leading turns) : question ∈ questions turns := by
  induction turns with
  | nil => cases member
  | cons turn turns induction =>
      cases turn with
      | asked consultation =>
          rcases List.mem_cons.mp member with rfl | later
          · exact List.mem_cons_self
          · exact List.mem_cons_of_mem _ (induction later)
      | reached outcome => cases member

theorem questions_verdict (expected : Bool) (outcome : γ) (turns : Turns α β) :
    questions (verdict expected outcome turns) = leading turns := by
  have asked : ∀ consultations : List (Consultation α),
      questions (consultations.map (fun consultation => (.asked consultation : Turn α γ))) =
        consultations := by
    intro consultations
    induction consultations with
    | nil => rfl
    | cons consultation consultations induction => exact congrArg (consultation :: ·) induction
  rw [verdict, questions_append, asked]
  split <;> exact List.append_nil _

theorem leading_append (first second : Turns α β) :
    leading (first ++ second) =
      if (outcomes first).isEmpty then leading first ++ leading second else leading first := by
  induction first with
  | nil => rfl
  | cons turn turns induction =>
      cases turn with
      | reached outcome => simp [leading, outcomes]
      | asked consultation =>
          by_cases empty : outcomes turns = [] <;> simp [leading, outcomes, induction, empty]

end Turns

/-! ## Exploring -/

structure Trial (α β : Type) where
  consultations : List (Consultation α)
  result : Option β

namespace Trial

variable {α β γ : Type}

def failure : Trial α β := ⟨[], none⟩

def success (result : β) : Trial α β := ⟨[], some result⟩

def after (consultation : Consultation α) (trial : Trial α β) : Trial α β :=
  ⟨consultation :: trial.consultations, trial.result⟩

def afterAll (consultations : List (Consultation α)) (trial : Trial α β) : Trial α β :=
  ⟨consultations ++ trial.consultations, trial.result⟩

def orElse (first second : Trial α β) : Trial α β :=
  match first.result with
  | some _ => first
  | none => ⟨first.consultations ++ second.consultations, second.result⟩

def map (conclude : β → γ) (trial : Trial α β) : Trial α γ :=
  ⟨trial.consultations, trial.result.map conclude⟩

@[simp] theorem failure_orElse (trial : Trial α β) : orElse failure trial = trial := rfl

@[simp] theorem orElse_failure (trial : Trial α β) : orElse trial failure = trial := by
  rcases trial with ⟨consultations, result⟩
  cases result <;> simp [orElse, failure]

@[simp] theorem after_orElse (consultation : Consultation α) (first second : Trial α β) :
    orElse (after consultation first) second = after consultation (orElse first second) := by
  rcases first with ⟨consultations, result⟩
  cases result <;> simp [orElse, after]

theorem orElse_assoc (first second third : Trial α β) :
    orElse (orElse first second) third = orElse first (orElse second third) := by
  rcases first with ⟨asked, result⟩
  rcases second with ⟨asked', result'⟩
  cases result <;> cases result' <;> simp [orElse]

def explore (goal : β → Trial α γ) : Turns α β → Trial α γ
  | [] => failure
  | .asked consultation :: turns => after consultation (explore goal turns)
  | .reached outcome :: turns => orElse (goal outcome) (explore goal turns)

@[simp] theorem explore_nil (goal : β → Trial α γ) : explore goal [] = failure := rfl

@[simp] theorem explore_asked (goal : β → Trial α γ) (consultation : Consultation α)
    (turns : Turns α β) :
    explore goal (.asked consultation :: turns) = after consultation (explore goal turns) := rfl

@[simp] theorem explore_reached (goal : β → Trial α γ) (outcome : β) (turns : Turns α β) :
    explore goal (.reached outcome :: turns) = orElse (goal outcome) (explore goal turns) := rfl

@[simp] theorem explore_append (goal : β → Trial α γ) (first second : Turns α β) :
    explore goal (first ++ second) = orElse (explore goal first) (explore goal second) := by
  induction first with
  | nil => rfl
  | cons turn turns induction => cases turn <;> simp [induction, orElse_assoc]

theorem explore_andThen {δ : Type} (goal : γ → Trial α δ) (turns : Turns α β)
    (next : β → Turns α γ) :
    explore goal (Turns.andThen turns next) =
      explore (fun outcome => explore goal (next outcome)) turns := by
  induction turns with
  | nil => rfl
  | cons turn turns induction => cases turn <;> simp [induction]

theorem explore_verdict (goal : β → Trial α γ) (expected : Bool) (outcome : β) {δ : Type}
    (turns : Turns α δ) :
    explore goal (Turns.verdict expected outcome turns) =
      afterAll (Turns.leading turns)
        (if (Turns.outcomes turns).isEmpty = expected then failure else goal outcome) := by
  rw [Turns.verdict]
  induction Turns.leading turns with
  | nil => split <;> simp [afterAll]
  | cons consultation consultations induction => simp [induction, after, afterAll]

theorem map_explore {δ : Type} (conclude : γ → δ) (goal : β → Trial α γ) (turns : Turns α β) :
    (explore goal turns).map conclude =
      explore (fun outcome => (goal outcome).map conclude) turns := by
  have map_orElse (first second : Trial α γ) :
      (first.orElse second).map conclude = (first.map conclude).orElse (second.map conclude) := by
    rcases first with ⟨asked, result⟩
    cases result <;> rfl
  induction turns with
  | nil => rfl
  | cons turn turns induction =>
      cases turn with
      | asked consultation => rw [explore_asked, explore_asked, ← induction]; rfl
      | reached outcome => rw [explore_reached, explore_reached, map_orElse, induction]

/-- To be content with any outcome is to end with the first one. -/
theorem explore_success (conclude : β → γ) (turns : Turns α β) :
    explore (fun outcome => success (conclude outcome)) turns =
      ⟨Turns.leading turns, (Turns.outcomes turns).head?.map conclude⟩ := by
  induction turns with
  | nil => rfl
  | cons turn turns induction =>
      cases turn with
      | asked consultation => simp [induction, after, Turns.leading, Turns.outcomes]
      | reached outcome => simp [orElse, success, Turns.leading, Turns.outcomes]

theorem exists_of_result_explore {goal : β → Trial α γ} {turns : Turns α β} {result : γ}
    (found : (explore goal turns).result = some result) :
    ∃ outcome ∈ Turns.outcomes turns, (goal outcome).result = some result := by
  induction turns with
  | nil => cases found
  | cons turn turns induction =>
      cases turn with
      | asked consultation => exact induction found
      | reached outcome =>
          cases here : (goal outcome).result with
          | some other =>
              refine ⟨outcome, List.mem_cons_self, ?_⟩
              simpa [orElse, here] using found
          | none =>
              have later : (explore goal turns).result = some result := by
                simpa [orElse, here] using found
              rcases induction later with ⟨outcome', present, reaches⟩
              exact ⟨outcome', List.mem_cons_of_mem _ present, reaches⟩

theorem mem_consultations_explore {goal : β → Trial α γ} {turns : Turns α β}
    {consultation : Consultation α} (asked : consultation ∈ (explore goal turns).consultations) :
    consultation ∈ Turns.questions turns ∨
      ∃ outcome ∈ Turns.outcomes turns, consultation ∈ (goal outcome).consultations := by
  induction turns with
  | nil => cases asked
  | cons turn turns induction =>
      cases turn with
      | asked first =>
          rcases List.mem_cons.mp asked with equal | later
          · exact .inl (equal ▸ List.mem_cons_self)
          · rcases induction later with question | ⟨outcome, present, asks⟩
            · exact .inl (List.mem_cons_of_mem _ question)
            · exact .inr ⟨outcome, present, asks⟩
      | reached outcome =>
          have split : consultation ∈ (goal outcome).consultations ∨
              consultation ∈ (explore goal turns).consultations := by
            rw [explore_reached, orElse] at asked
            split at asked
            · exact .inl asked
            · exact List.mem_append.mp asked
          rcases split with here | later
          · exact .inr ⟨outcome, List.mem_cons_self, here⟩
          · rcases induction later with question | ⟨outcome', present, asks⟩
            · exact .inl question
            · exact .inr ⟨outcome', List.mem_cons_of_mem _ present, asks⟩

end Trial

end Destructure
