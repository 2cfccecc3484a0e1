import Destructure.Proofs.Matching.Realization

/-!
Where values are split. A row that is given values goes on from places in them only: it does the same
for continuations that do the same there, so whatever it takes off the values, it takes no more than
there are. A repetition gives its unit the values up to a place that it counts or walks to, and
goes on with those behind it.

Main statement: `Matcher.within_items`.
-/

namespace Destructure

variable {α : Type}

namespace Continuation

def Agree (values : List (Value α)) (next other : Continuation α) : Prop :=
  ∀ count ≤ values.length, next (values.drop count) = other (values.drop count)

variable {values : List (Value α)} {next other : Continuation α}

theorem Agree.here (agree : Agree values next other) : next values = other values :=
  agree 0 (Nat.zero_le _)

theorem Agree.drop (agree : Agree values next other) {count : Nat} (inside : count ≤ values.length) :
    Agree (values.drop count) next other := by
  intro further within
  rw [List.length_drop] at within
  rw [List.drop_drop]
  exact agree (count + further) (by omega)

theorem Agree.tail {value : Value α} (agree : Agree (value :: values) next other) :
    Agree values next other :=
  agree.drop (Nat.le_add_left 1 values.length)

end Continuation

namespace Step

open Continuation (Agree)

def Within (call : List (Value α) → Continuation α → Step α) : Prop :=
  ∀ values next other, Agree values next other → call values next = call values other

variable {values : List (Value α)} {next other : Continuation α}
variable {row : List (Value α) → Continuation α → Step α}

theorem Within.agree (within : Within row) (agree : Agree values next other) :
    Agree values (fun left => row left next) fun left => row left other :=
  fun _ inside => within _ next other (agree.drop inside)

theorem within_passes (within : Within row) (count : Nat) : Within (passes row count) := by
  induction count with
  | zero => exact fun values next other agree => agree.here
  | succ count induction =>
      exact fun values next other agree => within values _ _ (induction.agree agree)

theorem tryCounts_congr {attempt attempt' : Nat → Step α} {counts : List Nat}
    (same : ∀ count ∈ counts, attempt count = attempt' count) :
    tryCounts attempt counts = tryCounts attempt' counts := by
  induction counts with
  | nil => rfl
  | cons count counts induction =>
      obtain ⟨here, others⟩ := List.forall_mem_cons.mp same
      funext state
      rw [tryCounts, tryCounts, here, induction others]

theorem retreat_congr {rests : List (Rest α)}
    (same : ∀ rest ∈ rests, next rest.2 = other rest.2) :
    retreat next rests = retreat other rests := by
  induction rests with
  | nil => rfl
  | cons rest rests induction =>
      obtain ⟨here, others⟩ := List.forall_mem_cons.mp same
      funext state
      rw [retreat, retreat, here, induction others]

/-- What is gone back to are places that the unit has reached along the values. -/
theorem flatGreedy_congr (unit : Value α → Step α) (minimum : Nat)
    (agree : Agree values next other) :
    flatGreedy unit minimum values next = flatGreedy unit minimum values other := by
  funext state
  obtain ⟨reached, inside, places⟩ := stretch_places unit values state
  have same : ∀ rest ∈ (stretch unit values [(state.mark, values)] state).1,
      next rest.2 = other rest.2 := by
    intro rest member
    have place := List.mem_map_of_mem (f := Prod.snd) member
    rw [places, List.mem_reverse] at place
    obtain ⟨passed, below, left⟩ := List.mem_map.mp place
    rw [← left]
    exact agree passed (by have := List.mem_range.mp below; omega)
  simp only [flatGreedy]
  rw [retreat_congr fun rest member => same rest (List.mem_of_mem_take member)]

theorem flatLazy_congr (unit : Value α → Step α) (required : Nat)
    (agree : Agree values next other) :
    flatLazy unit next required values = flatLazy unit other required values := by
  induction values generalizing required with
  | nil =>
      funext state
      rw [flatLazy, flatLazy, agree.here]
  | cons value values induction =>
      funext state
      have behind := induction (required - 1) agree.tail
      rw [flatLazy, flatLazy]
      simp only [agree.here, behind]

end Step

namespace Matcher

open Step (Within)

variable [BEq α]

omit [BEq α] in
theorem within_repeatUnit (matcher : Matcher α) (repetition minimum : Nat) (greed : Greed)
    {unit : (List (Value α) → Continuation α → Step α) ⊕ (Bool × (Value α → Step α → Step α))}
    (within : ∀ row, unit = .inl row → Within row) :
    Within (matcher.repeatUnit repetition minimum greed unit) := by
  intro values next other agree
  have inside : ∀ count ∈ greed.counts minimum values.length, count ≤ values.length :=
    fun count member => (Greed.mem_counts.mp member).2
  match unit with
  | .inl row =>
      apply Step.tryCounts_congr
      intro count _
      funext state
      rw [Step.within_passes (within row rfl) count values next other agree]
  | .inr (true, single) =>
      apply Step.tryCounts_congr
      intro count member
      funext state
      rw [agree count (inside count member)]
  | .inr (false, single) =>
      simp only [repeatUnit]
      congr 1
      funext state
      cases greed with
      | greedy => rw [Step.flatGreedy_congr _ _ agree]
      | lazy => rw [Step.flatLazy_congr _ _ agree]

theorem within_repetition_of_parts {matcher : Matcher α} {unit : Outline α}
    (parts : Within (matcher.matchParts unit)) (id minimum : Nat) (greed : Greed) :
    Within (matcher.repeatUnit id minimum greed
      (if unit.kind.isSequence then .inl (matcher.matchParts unit)
      else .inr (matcher.branches unit.id, matcher.matchOne unit))) := by
  apply matcher.within_repeatUnit id minimum greed
  intro row isRow
  split at isRow
  · cases isRow
    exact parts
  · cases isRow

/-- A row of items goes on from places in its values only. -/
theorem within_items (matcher : Matcher α) : Outline.Inductive
    (fun item => Within (matcher.matchParts item))
    (fun items => Within (matcher.matchRow items)) where
  node id kind children ofChildren ofRow := ofRow
  nil values next other agree := agree.here
  repeated unit repetition minimum greed parts items ofUnit ofItems values next other agree := by
    funext state
    have here := within_repetition_of_parts ofUnit repetition minimum greed values _ _
      (ofItems.agree agree)
    simp only [matchRow]
    rw [here]
  plain item items leads ofItem ofItems values next other agree := by
    funext state
    have parts := ofItem values _ _ (ofItems.agree agree)
    have here := ofItems values next other agree
    rw [matchRow_plain matcher leads, matchRow_plain matcher leads, parts, here]
    cases values with
    | nil => rfl
    | cons value values =>
        have behind := ofItems values next other agree.tail
        simp only [behind]

/-- So does a repetition, whatever stands in front of it. -/
theorem within_repetition (matcher : Matcher α) (unit : Outline α) (id minimum : Nat)
    (greed : Greed) : Within (matcher.repeatUnit id minimum greed
      (if unit.kind.isSequence then .inl (matcher.matchParts unit)
      else .inr (matcher.branches unit.id, matcher.matchOne unit))) :=
  within_repetition_of_parts (matcher.within_items.item unit) id minimum greed

end Matcher

end Destructure
