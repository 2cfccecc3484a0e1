import Destructure.Proofs.Matching.Engine
import Destructure.Proofs.Matching.Stretch
import Mathlib.Data.Finset.Lattice.Fold

/-!
What an attempt costs at most. If the calls that it makes end within a budget, and do what certain
steps do, so does the attempt itself: it costs no more than all the calls together that may come up
in it. So the cost depends neither on who answers which question nor on what has been recorded.
-/

namespace Destructure

variable {α : Type}

namespace Attempt

/-! ## Costs -/

/-- Begun in a state with at least so much of a budget, an attempt ends in this way, and has spent
no more than that. Nor have more items been tried. -/
def Ends {β : Type} (attempt : Progress α → Option (β × Progress α)) (cost : Nat)
    (state : SearchState α) (ended : β × SearchState α) : Prop :=
  (∀ budget, cost ≤ budget → ∃ left, attempt ⟨state, budget⟩ = some (ended.1, ⟨ended.2, left⟩) ∧
    budget ≤ left + cost) ∧
  ended.2.moves ≤ state.moves + cost

section

variable {β γ : Type} {attempt : Progress α → Option (β × Progress α)} {cost cost' : Nat}
variable {state : SearchState α} {ended : β × SearchState α}

theorem Ends.mono (ends : Ends attempt cost state ended) (le : cost ≤ cost') :
    Ends attempt cost' state ended := by
  refine ⟨fun budget within => ?_, Nat.le_trans ends.2 (Nat.add_le_add_left le _)⟩
  rcases ends.1 budget (Nat.le_trans le within) with ⟨left, equal, spent⟩
  exact ⟨left, equal, Nat.le_trans spent (Nat.add_le_add_left le _)⟩

theorem Ends.after {change : SearchState α → SearchState α}
    (ends : Ends attempt cost (change state) ended)
    (moves : (change state).moves ≤ state.moves + cost') :
    Ends (fun progress => attempt { progress with state := change progress.state }) (cost + cost')
      state ended := by
  refine ⟨fun budget within => ?_, ?_⟩
  · rcases ends.1 budget (by omega) with ⟨left, equal, spent⟩
    exact ⟨left, equal, by omega⟩
  · have := ends.2
    omega

/-- What goes on where an attempt has ended. -/
theorem Ends.continued (ends : Ends attempt cost state ended)
    {further whole : Progress α → Option (γ × Progress α)} {last : γ × SearchState α}
    (ends' : Ends further cost' ended.2 last)
    (equal : ∀ budget left, attempt ⟨state, budget⟩ = some (ended.1, ⟨ended.2, left⟩) →
      whole ⟨state, budget⟩ = further ⟨ended.2, left⟩) :
    Ends whole (cost + cost') state last := by
  refine ⟨fun budget within => ?_, ?_⟩
  · rcases ends.1 budget (by omega) with ⟨middle, reached, spent⟩
    rcases ends'.1 middle (by omega) with ⟨left, continued, spent'⟩
    exact ⟨left, (equal budget middle reached).trans continued, by omega⟩
  · have := ends.2
    have := ends'.2
    omega

end

variable {first yes no : Attempt α} {cost cost' : Nat} {state : SearchState α}

theorem ends_step (step : Step α) (still : (step state).2.moves = state.moves) :
    Ends (Attempt.step step) 0 state (step state) :=
  ⟨fun budget _ => ⟨budget, rfl, Nat.le_refl _⟩, Nat.le_of_eq still⟩

theorem ends_back (matched : Bool) (mark : Nat) (later : SearchState α) :
    Ends (Attempt.after (SearchState.rollBack · mark) (.step fun state => (matched, state))) 0 later
      (matched, later.rollBack mark) :=
  ⟨fun budget _ => ⟨budget, rfl, Nat.le_refl _⟩, Nat.le_refl _⟩

theorem Ends.branch (step : Step α) {yesStep noStep : Step α}
    (ends : Ends first cost state (step state))
    (endsYes : ∀ later, Ends yes cost' later (yesStep later))
    (endsNo : ∀ later, Ends no cost' later (noStep later)) :
    Ends (Attempt.branch first yes no) (cost + cost') state
      (match step state with
        | (true, later) => yesStep later
        | (false, later) => noStep later) := by
  rcases ended : step state with ⟨_ | _, later⟩ <;> rw [ended] at ends
  · exact ends.continued (endsNo later) fun budget left reached => by
      rw [Attempt.branch, reached]
  · exact ends.continued (endsYes later) fun budget left reached => by
      rw [Attempt.branch, reached]

end Attempt

/-- At some cost, whatever the guard and the state, the attempt does what the step does, if its
calls may be nested as deeply as that. -/
def Attempt.Settles {Guard : Type} (attempt : Guard → Nat → Attempt α) (step : Guard → Step α) :
    Prop :=
  ∃ cost, ∀ guard depth, cost ≤ depth → ∀ state,
    Attempt.Ends (attempt guard depth) cost state (step guard state)

namespace Attempt

variable {Guard : Type}

section

variable {attempt first yes no : Guard → Nat → Attempt α}
variable {step firstStep yesStep noStep : Guard → Step α}

theorem Settles.of_eq (settles : Settles attempt step) {attempt' : Guard → Nat → Attempt α}
    {step' : Guard → Step α} (attempts : ∀ guard depth, attempt' guard depth = attempt guard depth)
    (steps : ∀ guard state, step' guard state = step guard state) : Settles attempt' step' := by
  obtain rfl : attempt' = attempt := funext₂ attempts
  obtain rfl : step' = step := funext₂ steps
  exact settles

theorem settles_step (still : ∀ guard state, (step guard state).2.moves = state.moves) :
    Settles (fun guard _ => .step (step guard)) step :=
  ⟨0, fun guard _ _ state => ends_step _ (still guard state)⟩

theorem settles_succeed : Settles (fun (_ : Guard) _ => .succeed (α := α)) fun _ => Step.accept :=
  settles_step fun _ _ => rfl

theorem settles_fail :
    Settles (fun (_ : Guard) _ => .fail) fun _ (state : SearchState α) => (false, state) :=
  settles_step fun _ _ => rfl

theorem settles_refuse (anomaly : Anomaly) :
    Settles (fun (_ : Guard) _ => .step (SearchState.refuse (α := α) · anomaly))
      fun _ state => state.refuse anomaly :=
  settles_step fun _ _ => rfl

theorem Settles.after (settles : Settles attempt step) {change : SearchState α → SearchState α}
    (moves : ∀ state, (change state).moves ≤ state.moves + 1) :
    Settles (fun guard depth => (attempt guard depth).after change)
      fun guard state => step guard (change state) := by
  rcases settles with ⟨cost, ends⟩
  exact ⟨cost + 1, fun guard depth within state =>
    (ends guard depth (Nat.le_of_succ_le within) _).after (moves state)⟩

theorem Settles.branch (settles : Settles first firstStep) (settlesYes : Settles yes yesStep)
    (settlesNo : Settles no noStep) :
    Settles (fun guard depth => .branch (first guard depth) (yes guard depth) (no guard depth))
      fun guard state =>
        match firstStep guard state with
        | (true, later) => yesStep guard later
        | (false, later) => noStep guard later := by
  rcases settles with ⟨cost, ends⟩
  rcases settlesYes with ⟨costYes, endsYes⟩
  rcases settlesNo with ⟨costNo, endsNo⟩
  refine ⟨cost + (costYes + costNo), fun guard depth within state => ?_⟩
  apply (ends guard depth (by omega) state).branch (firstStep guard)
  · exact fun later => (endsYes guard depth (by omega) later).mono (Nat.le_add_right _ _)
  · exact fun later => (endsNo guard depth (by omega) later).mono (Nat.le_add_left _ _)

theorem Settles.when (settles : Settles attempt step) (condition : Prop) [Decidable condition] :
    Settles (fun guard depth => if condition then attempt guard depth else .fail)
      fun guard state => if condition then step guard state else (false, state) := by
  split
  · exact settles
  · exact settles_fail

/-- A value that may be missing is given to the attempt. -/
theorem settles_given {β : Type} {attempt : β → Guard → Nat → Attempt α} {step : β → Guard → Step α}
    (settles : ∀ thing, Settles (attempt thing) (step thing)) (given : Option β) :
    Settles (fun guard depth => (given.map fun thing => attempt thing guard depth).getD .fail)
      fun guard state =>
        match given with
        | none => (false, state)
        | some thing => step thing guard state := by
  cases given with
  | none => exact settles_fail
  | some thing => exact settles thing

theorem Settles.orRollBack (settles : Settles attempt step) :
    Settles (fun guard depth => .orRollBack (attempt guard depth))
      fun guard => Step.orRollBack (step guard) := by
  rcases settles with ⟨cost, ends⟩
  refine ⟨cost, fun guard depth within state => ?_⟩
  exact (ends guard depth within state).branch (step guard) (fun _ => ends_step Step.accept rfl)
    (ends_back false state.mark)

theorem Settles.isolated (settles : Settles attempt step) :
    Settles (fun guard depth => .isolated (attempt guard depth))
      fun guard => Step.isolated (step guard) := by
  rcases settles with ⟨cost, ends⟩
  refine ⟨cost, fun guard depth within state => ?_⟩
  have both := (ends guard depth within state).branch (step guard) (ends_back true state.mark)
    (ends_back false state.mark)
  simp only [Step.isolated]
  rcases ended : step guard state with ⟨_ | _, later⟩ <;> rw [ended] at both <;> exact both

end

/-! ## Loops -/

theorem settles_tryCounts {attempt : Guard → Nat → Nat → Attempt α} {step : Guard → Nat → Step α}
    (settles : ∀ count,
      Settles (fun guard depth => attempt guard depth count) fun guard => step guard count)
    (counts : List Nat) :
    Settles (fun guard depth => .tryCounts (attempt guard depth) counts)
      fun guard => Step.tryCounts (step guard) counts := by
  induction counts with
  | nil => exact settles_fail
  | cons count counts induction => exact (settles count).orRollBack.branch settles_succeed induction

section

variable {unit : Guard → Nat → Value α → Attempt α} {unitStep : Guard → Value α → Step α}
variable (settlesUnit : ∀ value,
  Settles (fun guard depth => unit guard depth value) fun guard => unitStep guard value)

include settlesUnit in
theorem exists_ends_stretch (values : List (Value α)) :
    ∃ cost, ∀ guard depth, cost ≤ depth → ∀ reached state,
      Ends (stretch (unit guard depth) values reached) cost state
        (Step.stretch (unitStep guard) values reached state) := by
  induction values with
  | nil =>
      exact ⟨0, fun guard depth _ reached state =>
        ⟨fun budget _ => ⟨budget, rfl, Nat.le_refl _⟩, Nat.le_refl _⟩⟩
  | cons value values induction =>
      rcases settlesUnit value with ⟨costUnit, endsUnit⟩
      rcases induction with ⟨cost, further⟩
      refine ⟨costUnit + cost, fun guard depth within reached state => ?_⟩
      have ends : Ends (unit guard depth value) costUnit state (unitStep guard value state) :=
        endsUnit guard depth (by omega) state
      rw [Step.stretch]
      rcases ended : unitStep guard value state with ⟨_ | _, later⟩ <;> rw [ended] at ends
      · have here : Ends (fun progress => some (reached, progress)) cost later (reached, later) :=
          ⟨fun budget _ => ⟨budget, rfl, Nat.le_add_right _ _⟩, Nat.le_add_right _ _⟩
        exact ends.continued here fun budget left reached => by rw [stretch, reached]
      · have onward := further guard depth (by omega) ((later.mark, values) :: reached) later
        exact ends.continued onward fun budget left reached => by rw [stretch, reached]

variable {next : Guard → Nat → List (Value α) → Attempt α} {nextStep : Guard → Continuation α}
variable (settles : ∀ left,
  Settles (fun guard depth => next guard depth left) fun guard => nextStep guard left)

theorem ends_retreat {next : List (Value α) → Attempt α} {nextStep : Continuation α} {cost : Nat}
    {rests : List (Step.Rest α)}
    (ends : ∀ left ∈ rests.map Prod.snd, ∀ state, Ends (next left) cost state (nextStep left state))
    (state : SearchState α) :
    Ends (retreat next rests) (rests.length * cost) state (Step.retreat nextStep rests state) := by
  induction rests generalizing state with
  | nil => exact (ends_step (fun state => (false, state)) rfl).mono (Nat.zero_le _)
  | cons rest rests induction =>
      rw [List.map_cons, List.forall_mem_cons] at ends
      have here : Ends (Attempt.after (SearchState.rollBack · rest.1) (next rest.2)) cost state
          (nextStep rest.2 (state.rollBack rest.1)) := ends.1 (state.rollBack rest.1)
      have both := here.branch (fun state => nextStep rest.2 (state.rollBack rest.1))
        (fun _ => (ends_step Step.accept rfl).mono (Nat.zero_le _)) (induction ends.2)
      exact both.mono (by rw [List.length_cons, Nat.succ_mul, Nat.add_comm])

include settlesUnit settles

theorem settles_flatGreedy (minimum : Nat) (values : List (Value α)) :
    Settles (fun guard depth => .flatGreedy (unit guard depth) minimum values (next guard depth))
      fun guard => Step.flatGreedy (unitStep guard) minimum values (nextStep guard) := by
  rcases exists_ends_stretch settlesUnit values with ⟨costStretch, endsStretch⟩
  choose costs ends using settles
  obtain ⟨cost, bound⟩ : ∃ cost, ∀ passed ∈ Finset.range (values.length + 1),
      costs (values.drop passed) ≤ cost := ⟨_, fun _ member =>
    Finset.le_sup (f := fun passed => costs (values.drop passed)) member⟩
  refine ⟨costStretch + (values.length + 1) * cost, fun guard depth within state => ?_⟩
  have stretched := endsStretch guard depth (by omega) [(state.mark, values)] state
  rcases Step.stretch_places (unitStep guard) values state with ⟨count, within', places⟩
  simp only [Step.flatGreedy]
  rcases ended : Step.stretch (unitStep guard) values [(state.mark, values)] state with
    ⟨reached, later⟩
  rw [ended] at stretched places
  have length : reached.length = count + 1 := by simpa using congrArg List.length places
  have onward : ∀ left ∈ (reached.take (reached.length - minimum)).map Prod.snd, ∀ state,
      Ends (next guard depth left) cost state (nextStep guard left state) := by
    intro left member later
    have among : left ∈ reached.map Prod.snd := by
      rw [List.map_take] at member
      exact List.mem_of_mem_take member
    rw [places] at among
    rcases List.mem_map.mp (List.mem_reverse.mp among) with ⟨passed, inside, rfl⟩
    have affordable := bound passed (Finset.mem_range.mpr
      (Nat.lt_of_lt_of_le (List.mem_range.mp inside) (Nat.succ_le_succ within')))
    have enough : cost ≤ (values.length + 1) * cost := Nat.le_mul_of_pos_left _ (Nat.succ_pos _)
    exact (ends _ guard depth (by omega) later).mono affordable
  have few : (reached.take (reached.length - minimum)).length ≤ values.length + 1 := by
    rw [List.length_take]
    omega
  have retreated := (ends_retreat onward later).mono (Nat.mul_le_mul_right cost few)
  exact stretched.continued retreated fun budget left reached => by rw [flatGreedy, reached]

theorem settles_flatLazy (required : Nat) (values : List (Value α)) :
    Settles (fun guard depth => .flatLazy (unit guard depth) (next guard depth) required values)
      fun guard => Step.flatLazy (unitStep guard) (nextStep guard) required values := by
  have here (required : Nat) (values : List (Value α)) :=
    (settles values).orRollBack.when (required = 0)
  induction values generalizing required with
  | nil =>
      apply ((here required []).branch settles_succeed settles_fail).of_eq
      · exact fun _ _ => by rw [flatLazy]
      · exact fun _ _ => by rw [Step.flatLazy]; rfl
  | cons value values induction =>
      apply ((here required (value :: values)).branch settles_succeed
        ((settlesUnit value).branch (induction (required - 1)) settles_fail)).of_eq
      · exact fun _ _ => by rw [flatLazy]
      · exact fun _ _ => by rw [Step.flatLazy]; rfl

end

end Attempt

end Destructure
