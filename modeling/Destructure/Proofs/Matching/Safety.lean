import Destructure.Proofs.Matching.Nesting
import Destructure.Proofs.Matching.Realization

/-!
Steps that take no note. Given that the lists of the repetitions around it are there, such a step
meets none of the situations that a search has a note for, and it misses no list: if it fails, the
slots are those that it found, and otherwise its trail leads back to them exactly.
-/

namespace Destructure

variable {α : Type}

open Contents (Opened within)
open Slots (Retraces)

structure Keeps (left : Slots α → Slots α → Prop) (after : Contents α → Prop)
    (state : SearchState α) (ended : Bool × SearchState α) : Prop where
  anomalies : ended.2.anomalies = state.anomalies
  matched : ended.1 = true → Retraces state.slots ended.2.slots ∧ after ended.2.slots.entries
  failed : ended.1 = false → left state.slots ended.2.slots

def Safe (left : Slots α → Slots α → Prop) (levels : Nat → Option Nat) (after : Contents α → Prop)
    (step : Step α) : Prop :=
  ∀ state, Opened levels state.slots.entries → Keeps left after state (step state)

variable {left : Slots α → Slots α → Prop} {levels : Nat → Option Nat} {after : Contents α → Prop}

namespace Keeps

variable {state later : SearchState α} {ended : Bool × SearchState α}

theorem loosely (keeps : Keeps Eq after state ended) : Keeps Retraces after state ended where
  anomalies := keeps.anomalies
  matched := keeps.matched
  failed failed := keeps.failed failed ▸ .refl _

theorem failure (slots : state.slots = later.slots)
    (anomalies : later.anomalies = state.anomalies) :
    Keeps Eq after state (false, later) where
  anomalies := anomalies
  matched impossible := absurd impossible Bool.false_ne_true
  failed _ := slots

theorem of_eq (slots : state.slots = later.slots) (anomalies : later.anomalies = state.anomalies)
    (keeps : Keeps left after later ended) : Keeps left after state ended where
  anomalies := keeps.anomalies.trans anomalies
  matched matched := slots ▸ keeps.matched matched
  failed failed := slots ▸ keeps.failed failed

theorem of_retraces (retraces : Retraces state.slots later.slots)
    (anomalies : later.anomalies = state.anomalies) (keeps : Keeps Retraces after later ended) :
    Keeps Retraces after state ended where
  anomalies := keeps.anomalies.trans anomalies
  matched matched := ⟨retraces.trans (keeps.matched matched).1, (keeps.matched matched).2⟩
  failed failed := retraces.trans (keeps.failed failed)

theorem of_matched {left' : Slots α → Slots α → Prop}
    (keeps : Keeps left' after state (true, later)) : Keeps left after state (true, later) where
  anomalies := keeps.anomalies
  matched := keeps.matched
  failed impossible := absurd impossible Bool.true_eq_false.mp

end Keeps

namespace Step

variable {step rest : Step α}

theorem safe_accept : Safe Eq levels (Opened levels) (accept : Step α) :=
  fun _ opened => ⟨rfl, fun _ => ⟨.refl _, opened⟩, fun _ => rfl⟩

theorem safe_orRollBack (safe : Safe Retraces levels after step) :
    Safe Eq levels after (orRollBack step) := by
  intro state opened
  have keeps := safe state opened
  rw [orRollBack]
  rcases ended : step state with ⟨matched, later⟩
  rw [ended] at keeps
  cases matched with
  | true => exact keeps.of_matched
  | false => exact .failure (keeps.failed rfl).undo_eq.symm keeps.anomalies

/-- Try something else where a step fails. -/
theorem safe_orTry (safe : Safe Eq levels after step) (safeRest : Safe left levels after rest) :
    Safe left levels after fun state =>
      match step state with
      | (true, later) => (true, later)
      | (false, later) => rest later := by
  intro state opened
  have keeps := safe state opened
  rcases ended : step state with ⟨matched, later⟩
  rw [ended] at keeps
  simp only [ended]
  cases matched with
  | true => exact keeps.of_matched
  | false =>
      have same := keeps.failed rfl
      exact (safeRest later (same ▸ opened)).of_eq same keeps.anomalies

/-- Go on where a step succeeds. -/
theorem safe_andThen {between : Contents α → Prop} (safe : Safe Eq levels between step)
    (safeRest : ∀ later, between later.slots.entries → Keeps Retraces after later (rest later)) :
    Safe Retraces levels after fun state =>
      match step state with
      | (true, later) => rest later
      | (false, later) => (false, later) := by
  intro state opened
  have keeps := safe state opened
  rcases ended : step state with ⟨matched, later⟩
  rw [ended] at keeps
  simp only [ended]
  cases matched with
  | true =>
      rcases keeps.matched rfl with ⟨retraces, between⟩
      exact (safeRest later between).of_retraces retraces keeps.anomalies
  | false => exact (Keeps.failure (keeps.failed rfl) keeps.anomalies).loosely

theorem safe_exhausted (safe : Safe Eq levels after step) (values : List (Value α)) :
    Safe Eq levels after (exhausted step values) := by
  intro state opened
  rw [exhausted]
  split
  · exact safe state opened
  · exact .failure rfl rfl

theorem safe_tryCounts {attempt : Nat → Step α}
    (safe : ∀ count, Safe Retraces levels after (attempt count)) (counts : List Nat) :
    Safe Eq levels after (tryCounts attempt counts) := by
  induction counts with
  | nil => exact fun state opened => .failure rfl rfl
  | cons count counts induction => exact safe_orTry (safe_orRollBack (safe count)) induction

/-! ## Items -/

def SafeItem (levels : Nat → Option Nat) (single : Value α → Step α → Step α) : Prop :=
  ∀ after value next, Safe Eq levels after next → Safe Eq levels after (single value next)

def SafeRow (levels : Nat → Option Nat) (row : List (Value α) → Continuation α → Step α) : Prop :=
  ∀ after values next, (∀ left, Safe Eq levels after (next left)) →
    Safe Eq levels after (row values next)

theorem safe_eachValue {single : Value α → Step α → Step α} (safeItem : SafeItem levels single)
    {next : Step α} (safe : Safe Eq levels after next) (values : List (Value α)) :
    Safe Eq levels after (eachValue single values next) := by
  induction values with
  | nil => exact safe
  | cons value values induction => exact safeItem after value _ induction

theorem safe_passes {row : List (Value α) → Continuation α → Step α} (safeRow : SafeRow levels row)
    {next : Continuation α} (safe : ∀ left, Safe Eq levels after (next left)) (count : Nat)
    (values : List (Value α)) : Safe Eq levels after (passes row count values next) := by
  induction count generalizing values with
  | zero => exact safe values
  | succ count induction => exact safeRow after values _ induction

/-! ## Stretches of values -/

/-- The marks are those of states at which entries can be put, the latest first. The trail leads
back from each to the one before it and in the end to the first. -/
inductive Returns (levels : Nat → Option Nat) (first : Slots α) :
    Slots α → List (Rest α) → Prop where
  | nil (current : Slots α) : Returns levels first current []
  | cons {current slots : Slots α} {rests : List (Rest α)} (left : List (Value α))
      (opened : Opened levels slots.entries) (since : Retraces first slots)
      (further : Retraces slots current) (before : Returns levels first slots rests) :
      Returns levels first current ((slots.mark, left) :: rests)

namespace Returns

variable {first current later : Slots α} {rests : List (Rest α)}

theorem extend (returns : Returns levels first current rests) (retraces : Retraces current later) :
    Returns levels first later rests := by
  cases returns with
  | nil => exact .nil later
  | cons left opened since further before =>
      exact .cons left opened since (further.trans retraces) before

theorem take (returns : Returns levels first current rests) (count : Nat) :
    Returns levels first current (rests.take count) := by
  induction returns generalizing count with
  | nil => simpa using Returns.nil _
  | cons left opened since further before induction =>
      cases count with
      | zero => exact .nil _
      | succ count => exact .cons left opened since further (induction count)

end Returns

theorem keeps_retreat {next : Continuation α} (safe : ∀ left, Safe Eq levels after (next left))
    {state current : SearchState α} {rests : List (Rest α)}
    (returns : Returns levels state.slots current.slots rests)
    (retraces : Retraces state.slots current.slots)
    (anomalies : current.anomalies = state.anomalies) :
    Keeps Retraces after state (retreat next rests current) := by
  generalize here : current.slots = slots at returns
  induction returns generalizing current with
  | nil => exact (Keeps.failure rfl rfl).loosely.of_retraces retraces anomalies
  | @cons _ slots rests values opened since further before induction =>
      subst here
      have back : (current.rollBack slots.mark).slots = slots := further.undo_eq
      have keeps := safe values (current.rollBack slots.mark) (back.symm ▸ opened)
      rw [retreat]
      rcases ended : next values (current.rollBack slots.mark) with ⟨matched, later⟩
      rw [ended] at keeps
      cases matched with
      | true =>
          have retraces : Retraces state.slots (current.rollBack slots.mark).slots :=
            back.symm ▸ since
          exact keeps.of_matched.of_retraces retraces anomalies
      | false =>
          have same := back.symm.trans (keeps.failed rfl)
          exact induction (same ▸ since) (keeps.anomalies.trans anomalies) same.symm

section

variable {unit : Value α → Step α} (safeUnit : ∀ value, Safe Eq levels (Opened levels) (unit value))
include safeUnit

theorem returns_stretch {first : Slots α} (values : List (Value α)) {reached : List (Rest α)}
    {state : SearchState α} (returns : Returns levels first state.slots reached)
    (since : Retraces first state.slots) (opened : Opened levels state.slots.entries) :
    let ended := stretch unit values reached state
    Returns levels first ended.2.slots ended.1 ∧ Retraces first ended.2.slots ∧
      ended.2.anomalies = state.anomalies := by
  induction values generalizing reached state with
  | nil => exact ⟨returns, since, rfl⟩
  | cons value values induction =>
      have keeps := safeUnit value state opened
      simp only [stretch]
      rcases ended : unit value state with ⟨matched, later⟩
      rw [ended] at keeps
      cases matched with
      | true =>
          rcases keeps.matched rfl with ⟨retraces, opened'⟩
          have since' := since.trans retraces
          rcases induction (.cons values opened' since' (.refl _) (returns.extend retraces)) since'
            opened' with ⟨returns', retraces', anomalies⟩
          exact ⟨returns', retraces', anomalies.trans keeps.anomalies⟩
      | false =>
          have same : state.slots = later.slots := keeps.failed rfl
          exact ⟨same ▸ returns, same ▸ since, keeps.anomalies⟩

variable {next : Continuation α} (safe : ∀ left, Safe Eq levels after (next left))
include safe

theorem safe_flatGreedy (minimum : Nat) (values : List (Value α)) :
    Safe Retraces levels after (flatGreedy unit minimum values next) := by
  intro state opened
  rcases returns_stretch safeUnit values
    (.cons values opened (.refl _) (.refl _) (.nil _)) (.refl state.slots) opened with
    ⟨returns, retraces, anomalies⟩
  exact keeps_retreat safe (returns.take _) retraces anomalies

theorem safe_flatLazy (required : Nat) (values : List (Value α)) :
    Safe Retraces levels after (flatLazy unit next required values) := by
  have here (required : Nat) (values : List (Value α)) : Safe Eq levels after fun state =>
      if required = 0 then orRollBack (next values) state else (false, state) := by
    intro state opened
    split
    · exact safe_orRollBack (fun state opened => (safe values state opened).loosely) state opened
    · exact .failure rfl rfl
  induction values generalizing required with
  | nil =>
      intro state opened
      rw [flatLazy]
      exact safe_orTry (here required []) (fun _ _ => (Keeps.failure rfl rfl).loosely) state opened
  | cons value values induction =>
      have further := safe_andThen (safeUnit value) (induction (required - 1))
      intro state opened
      rw [flatLazy]
      exact safe_orTry (here required (value :: values)) further state opened

end

/-! ## Trying an item by itself -/

/-- Finding out whether a step succeeds takes no note and leaves the slots as they were. -/
theorem isolated_keeps (safe : Safe Eq levels after step) {state : SearchState α}
    (opened : Opened levels state.slots.entries) :
    (isolated step state).2.slots = state.slots ∧
      (isolated step state).2.anomalies = state.anomalies := by
  have keeps := safe state opened
  refine ⟨?_, keeps.anomalies⟩
  change (step state).2.slots.undo state.slots.mark = state.slots
  cases ended : (step state).1 with
  | true => exact (keeps.matched ended).1.undo_eq
  | false => exact keeps.failed ended ▸ (Retraces.refl state.slots).undo_eq

end Step

end Destructure
