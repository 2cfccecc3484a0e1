import Destructure.Proofs.Matching.Conclusion
import Mathlib.Data.List.Basic

/-!
How repetitions carry out what they offer. Trying the counts one after another explores the
offers of all counts in turn. A unit that matches a value in one way at most can be matched once
along the values instead; going back along the places that were reached comes upon the same
places in the same order.
-/

namespace Destructure

variable {α : Type}

open Slots (Same Extends)

theorem Greed.mem_counts {greed : Greed} {minimum available count : Nat} :
    count ∈ greed.counts minimum available ↔ minimum ≤ count ∧ count ≤ available := by
  have ascending : count ∈ (List.range (available + 1 - minimum)).map (minimum + ·) ↔
      minimum ≤ count ∧ count ≤ available := by
    simp only [List.mem_map, List.mem_range]
    constructor
    · rintro ⟨offset, below, rfl⟩
      omega
    · intro ⟨least, most⟩
      exact ⟨count - minimum, by omega, by omega⟩
  cases greed with
  | lazy => exact ascending
  | greedy => exact List.mem_reverse.trans ascending

def RealizesItem (item : Value α → Step α → Step α)
    (turns : Value α → Contents α → Turns α (Contents α)) : Prop :=
  ∀ value (next : Step α) (goal : Contents α → Trial α (Ending α)), Realizes Same next goal →
    Realizes Same (item value next) fun contents => .explore goal (turns value contents)

def RealizesRow (row : List (Value α) → Continuation α → Step α)
    (turns : List (Value α) → Contents α → Turns α (Place α)) : Prop :=
  ∀ values (next : Continuation α) (goal : List (Value α) → Contents α → Trial α (Ending α)),
    (∀ left, Realizes Same (next left) (goal left)) →
    Realizes Same (row values next) fun contents =>
      .explore (fun place => goal place.left place.contents) (turns values contents)

namespace Step

theorem realizes_accept : Realizes Same (accept (α := α))
    fun contents => .success (contents, none) :=
  fun _ => ⟨rfl, rfl, rfl, .refl _, rfl⟩

theorem realizes_orRollBack {step : Step α} {goal : Contents α → Trial α (Ending α)}
    (realizes : Realizes Extends step goal) : Realizes Same (orRollBack step) goal := by
  intro state
  have concludes := realizes state
  rw [orRollBack]
  rcases ended : step state with ⟨matched, later⟩
  rw [ended] at concludes
  cases matched with
  | true =>
      rcases concludes with ⟨asked, conclusion⟩
      refine ⟨asked, ?_⟩
      cases result : (goal state.slots.entries).result with
      | none => simp [result] at conclusion
      | some ending => simpa [result] using conclusion
  | false => exact concludes.rollBack

theorem realizes_exhausted {next : Step α} {goal : Contents α → Trial α (Ending α)}
    (realizes : Realizes Same next goal) (left : List (Value α)) :
    Realizes Same (exhausted next left)
      fun contents => if left.isEmpty then goal contents else .failure := by
  intro state
  rw [exhausted]
  split
  · exact realizes state
  · exact .failure (.refl state)

/-! ## Count by count -/

theorem realizes_tryCounts {attempt : Nat → Step α} {goal : Place α → Trial α (Ending α)}
    {turns : Nat → Contents α → Turns α (Place α)}
    (realizes : ∀ count, Realizes Extends (attempt count)
      fun contents => .explore goal (turns count contents))
    (counts : List Nat) :
    Realizes Same (tryCounts attempt counts)
      fun contents => .explore goal (counts.flatMap fun count => turns count contents) := by
  induction counts with
  | nil => exact fun state => .failure (.refl state)
  | cons count counts induction =>
      intro state
      have concludes := realizes_orRollBack (realizes count) state
      simp only [List.flatMap_cons, Trial.explore_append, tryCounts]
      rcases ended : orRollBack (attempt count) state with ⟨matched, later⟩
      rw [ended] at concludes
      cases matched with
      | true => exact concludes.orElse_of_matched
      | false =>
          have similar := concludes.similar_of_failed
          have others := induction later
          rw [← similar.slots.entries] at others
          exact concludes.orElse_of_failed (others.of_similar similar)

theorem realizes_eachValue {unit : Value α → Step α → Step α}
    {turns : Value α → Contents α → Turns α (Contents α)} (realizes : RealizesItem unit turns)
    {next : Step α} {goal : Contents α → Trial α (Ending α)}
    (realizesNext : Realizes Same next goal)
    (values : List (Value α)) :
    Realizes Same (eachValue unit values next)
      fun contents => .explore goal (Turns.eachValue turns values contents) := by
  induction values with
  | nil => simpa [eachValue, Turns.eachValue] using realizesNext
  | cons value values induction =>
      simp only [eachValue, Turns.eachValue, Trial.explore_andThen]
      exact realizes value _ _ induction

theorem realizes_passes {row : List (Value α) → Continuation α → Step α}
    {turns : List (Value α) → Contents α → Turns α (Place α)} (realizes : RealizesRow row turns)
    (count : Nat) : RealizesRow (passes row count) (Turns.passes turns count) := by
  intro values next goal realizesNext
  induction count generalizing values with
  | zero => simpa [passes, Turns.passes] using realizesNext values
  | succ count induction =>
      simp only [passes, Turns.passes, Trial.explore_andThen]
      exact realizes values _ _ fun left => induction left

end Step

/-! ## Along the values -/

namespace Turns

def ofOption {β : Type} : Option β → Turns α β
  | none => []
  | some outcome => [.reached outcome]

def onward (way : Value α → Contents α → Option (Contents α)) :
    List (Value α) → Contents α → List (Place α)
  | [], _ => []
  | value :: values, contents =>
    match way value contents with
    | none => []
    | some contents => ⟨contents, values⟩ :: onward way values contents

theorem length_onward_le (way : Value α → Contents α → Option (Contents α))
    (values : List (Value α)) (contents : Contents α) :
    (onward way values contents).length ≤ values.length := by
  induction values generalizing contents with
  | nil => exact Nat.le_refl 0
  | cons value values induction =>
      rw [onward]
      cases way value contents with
      | none => exact Nat.zero_le _
      | some later => exact Nat.succ_le_succ (induction later)

theorem repeated_ofOption (way : Value α → Contents α → Option (Contents α))
    (values : List (Value α)) (contents : Contents α) (count : Nat)
    (enough : count ≤ values.length) :
    repeated (.inr fun value contents => ofOption (way value contents)) values contents count =
      ofOption (⟨contents, values⟩ :: onward way values contents)[count]? := by
  induction count generalizing values contents with
  | zero => simp [repeated, eachValue, ofOption]
  | succ count induction =>
      cases values with
      | nil => simp at enough
      | cons value values =>
          simp only [repeated, List.take_succ_cons, eachValue, List.drop_succ_cons, onward,
            List.getElem?_cons_succ]
          cases way value contents with
          | none => simp [ofOption]
          | some later =>
              simpa [repeated, ofOption] using
                induction values later (Nat.le_of_succ_le_succ enough)

theorem flatMap_getElem? {β : Type} (outcomes : List β) (minimum count : Nat) :
    ((List.range count).map (minimum + ·)).flatMap
        (fun index => ofOption (α := α) outcomes[index]?) =
      ((outcomes.drop minimum).take count).map .reached := by
  induction count with
  | zero => rfl
  | succ count induction =>
      rw [List.range_succ, List.map_append, List.flatMap_append, induction, List.take_add_one,
        List.map_append, List.getElem?_drop]
      cases present : outcomes[minimum + count]? <;> simp [ofOption, present]

/-- The places that a unit reaches which matches in one way at most, in the order in which they
are offered. -/
theorem flatMap_counts_repeated (way : Value α → Contents α → Option (Contents α)) (greed : Greed)
    (minimum : Nat) (values : List (Value α)) (contents : Contents α) :
    (greed.counts minimum values.length).flatMap
        (repeated (.inr fun value contents => ofOption (way value contents)) values contents) =
      (greed.walk ((⟨contents, values⟩ :: onward way values contents).drop minimum)).map
        .reached := by
  have offers : ∀ count ∈ greed.counts minimum values.length,
      repeated (.inr fun value contents => ofOption (way value contents)) values contents count =
        ofOption (⟨contents, values⟩ :: onward way values contents)[count]? :=
    fun count member => repeated_ofOption way values contents count (Greed.mem_counts.mp member).2
  have short := length_onward_le way values contents
  have ascending := flatMap_getElem? (α := α) (⟨contents, values⟩ :: onward way values contents)
    minimum (values.length + 1 - minimum)
  rw [List.take_of_length_le (by simp; omega)] at ascending
  rw [List.flatMap_congr offers]
  cases greed with
  | lazy => exact ascending
  | greedy =>
      rw [Greed.walk, List.map_reverse, ← ascending, List.reverse_flatMap, Greed.counts, Greed.walk]
      apply List.flatMap_congr
      intro count _
      cases present : (⟨contents, values⟩ :: onward way values contents)[count]? <;>
        simp [ofOption, present]

end Turns

end Destructure
