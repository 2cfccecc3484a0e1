import Destructure.Regex.Expression

/-!
Which stretches of a text an expression matches, whichever of them an engine prefers. The normal
form of repetitions keeps them, and a row between the two ends of the text matches all of it.

Main statements: `Expression.matches_of_normalize` and `Expression.whole_of_spanning`.
-/

namespace Destructure.Regex

namespace Expression

inductive Matches (text : Array Char) : Expression → Nat → Nat → Prop
  | empty (place : Nat) : Matches text empty place place
  | set {characters : CharacterSet} {place : Nat} {character : Char} :
      text[place]? = some character → characters.contains character →
      Matches text (set characters) place (place + 1)
  | anchor {condition : Anchor} {place : Nat} : place ≤ text.size →
      condition.holds text place → Matches text (anchor condition) place place
  | group {index : Option Nat} {body : Expression} {first last : Nat} :
      Matches text body first last → Matches text (group index body) first last
  | nil (place : Nat) : Matches text (sequence []) place place
  | cons {part : Expression} {parts : List Expression} {first between last : Nat} :
      Matches text part first between → Matches text (sequence parts) between last →
      Matches text (sequence (part :: parts)) first last
  | choice {alternative : Expression} {alternatives : List Expression} {first last : Nat} :
      alternative ∈ alternatives → Matches text alternative first last →
      Matches text (choice alternatives) first last
  | done {body : Expression} {maximum : Option Nat} {greedy : Bool} (place : Nat) :
      Matches text (repeated body 0 maximum greedy) place place
  | more {body : Expression} {minimum : Nat} {maximum : Option Nat} {greedy : Bool}
      {first between last : Nat} : maximum ≠ some 0 → Matches text body first between →
      Matches text (repeated body (minimum - 1) (maximum.map (· - 1)) greedy) between last →
      Matches text (repeated body minimum maximum greedy) first last

/-- An expression as it is read: no group has the index 0, which stands for the match as a whole,
a choice has an alternative, and no repetition has to exceed its limit. -/
inductive WellFormed : Expression → Prop
  | empty : WellFormed empty
  | set (characters : CharacterSet) : WellFormed (set characters)
  | anchor (condition : Anchor) : WellFormed (anchor condition)
  | group {index : Option Nat} {body : Expression} : index ≠ some 0 → WellFormed body →
      WellFormed (group index body)
  | sequence {parts : List Expression} : (∀ part ∈ parts, WellFormed part) →
      WellFormed (sequence parts)
  | choice {alternatives : List Expression} : alternatives ≠ [] →
      (∀ alternative ∈ alternatives, WellFormed alternative) → WellFormed (choice alternatives)
  | repeated {body : Expression} {minimum : Nat} {maximum : Option Nat} (greedy : Bool) :
      (∀ most ∈ maximum, minimum ≤ most) → WellFormed body →
      WellFormed (repeated body minimum maximum greedy)

variable {text : Array Char} {first between last : Nat}

/-! ## Repetitions -/

section Repetitions

variable {body other : Expression} {minimum : Nat} {maximum : Option Nat} {greedy : Bool}

theorem Matches.once (found : Matches text body first last) :
    Matches text (repeated body 1 (some 1) greedy) first last :=
  .more (by decide) found (.done last)

theorem Matches.fewer
    (found : Matches text (repeated body (minimum + 1) maximum greedy) first last) :
    Matches text (repeated body minimum maximum greedy) first last := by
  generalize whole : repeated body (minimum + 1) maximum greedy = expression at found
  induction found generalizing minimum maximum with
  | more further now later _ induction =>
      cases whole
      cases minimum with
      | zero => exact .more further now later
      | succ fewer => exact .more further now (induction rfl)
  | _ => cases whole

/-- What a body matches at one place may be repeated there. -/
theorem matches_repeated_here (found : Matches text body first first)
    (limited : ∀ most ∈ maximum, minimum ≤ most) :
    Matches text (repeated body minimum maximum greedy) first first := by
  induction minimum generalizing maximum with
  | zero => exact .done first
  | succ fewer induction =>
      refine .more ?_ found (induction ?_)
      · rintro rfl
        exact absurd (limited 0 rfl) (Nat.not_succ_le_zero fewer)
      · intro most member
        obtain ⟨bound, isBound, rfl⟩ := Option.map_eq_some_iff.mp member
        have := limited bound isBound
        omega

theorem Matches.imp_repeated
    (implies : ∀ {first last}, Matches text body first last → Matches text other first last)
    (found : Matches text (repeated body minimum maximum greedy) first last) :
    Matches text (repeated other minimum maximum greedy) first last := by
  generalize whole : repeated body minimum maximum greedy = expression at found
  induction found generalizing minimum maximum with
  | done =>
      cases whole
      exact .done _
  | more further now _ _ induction =>
      cases whole
      exact .more further (implies now) (induction rfl)
  | _ => cases whole

end Repetitions

/-! ## The empty text -/

theorem allOnlyEmpty_iff {parts : List Expression} :
    allOnlyEmpty parts ↔ ∀ part ∈ parts, onlyEmpty part := by
  induction parts with
  | nil => simp [allOnlyEmpty]
  | cons part parts induction => simp [allOnlyEmpty, induction]

theorem Matches.eq_of_onlyEmpty {expression : Expression} (found : Matches text expression first last)
    (only : expression.onlyEmpty) : last = first := by
  induction found with
  | empty | anchor | nil | done => rfl
  | set => cases only
  | group _ induction => exact induction only
  | cons _ _ one others =>
      rw [onlyEmpty, allOnlyEmpty_iff, List.forall_mem_cons] at only
      rw [others (by rw [onlyEmpty, allOnlyEmpty_iff]; exact only.2), one only.1]
  | choice member _ induction =>
      rw [onlyEmpty, allOnlyEmpty_iff] at only
      exact induction (only _ member)
  | more further _ _ one others =>
      rw [onlyEmpty, Bool.or_eq_true, beq_iff_eq] at only
      have only := only.resolve_left further
      rw [others (by rw [onlyEmpty, only, Bool.or_true]), one only]

/-! ## Normal form -/

theorem normalizeAll_eq_map (expressions : List Expression) :
    normalizeAll expressions = expressions.map normalize := by
  induction expressions with
  | nil => rfl
  | cons first others induction => rw [normalizeAll, induction, List.map_cons]

section Repetition

variable {body : Expression} {minimum : Nat} {maximum : Option Nat} {greedy : Bool}

/-- The limits of a repetition whose body matches the empty text alone. -/
theorem repetition_of_onlyEmpty (only : body.onlyEmpty) :
    repetition body minimum maximum greedy =
      if maximum = some 0 then empty
      else if 1 ≤ minimum then body
      else repeated body 0 (some 1) greedy := by
  cases maximum with
  | none =>
      cases minimum <;> simp [repetition, only]
  | some bound =>
      cases bound with
      | zero => simp [repetition, only]
      | succ bound => cases minimum <;> simp [repetition, only]

theorem repetition_of_not_onlyEmpty (only : body.onlyEmpty = false) :
    repetition body minimum maximum greedy =
      if maximum = some 0 then empty
      else if minimum = 1 ∧ maximum = some 1 then body
      else repeated body minimum maximum greedy := by
  cases maximum <;> simp [repetition, only]

theorem WellFormed.repetition (limited : ∀ most ∈ maximum, minimum ≤ most)
    (wellFormed : WellFormed body) :
    WellFormed (Expression.repetition body minimum maximum greedy) := by
  cases only : body.onlyEmpty with
  | true =>
      rw [repetition_of_onlyEmpty only]
      split
      · exact .empty
      · split
        · exact wellFormed
        · exact .repeated greedy (fun most _ => Nat.zero_le most) wellFormed
  | false =>
      rw [repetition_of_not_onlyEmpty only]
      split
      · exact .empty
      · split
        · exact wellFormed
        · exact .repeated greedy limited wellFormed

theorem matches_of_repetition (limited : ∀ most ∈ maximum, minimum ≤ most)
    (found : Matches text (repetition body minimum maximum greedy) first last) :
    Matches text (repeated body minimum maximum greedy) first last := by
  have ofNone (none : maximum = some 0) (nothing : Matches text empty first last) :
      Matches text (repeated body minimum maximum greedy) first last := by
    have := limited 0 none
    obtain rfl : minimum = 0 := by omega
    cases nothing
    exact .done first
  cases only : body.onlyEmpty with
  | true =>
      rw [repetition_of_onlyEmpty only] at found
      split at found
      next none => exact ofNone none found
      next some =>
        split at found
        · obtain rfl := found.eq_of_onlyEmpty only
          exact matches_repeated_here found limited
        next zero =>
          obtain rfl : minimum = 0 := by omega
          obtain rfl : last = first := found.eq_of_onlyEmpty (by rw [onlyEmpty, only, Bool.or_true])
          exact .done _
  | false =>
      rw [repetition_of_not_onlyEmpty only] at found
      split at found
      next none => exact ofNone none found
      next some =>
        split at found
        next one =>
          obtain ⟨rfl, rfl⟩ := one
          exact found.once
        next => exact found

end Repetition

theorem WellFormed.normalize {expression : Expression} (wellFormed : WellFormed expression) :
    WellFormed expression.normalize := by
  induction wellFormed with
  | empty => exact .empty
  | set characters => exact .set characters
  | anchor condition => exact .anchor condition
  | group counted _ induction => exact .group counted induction
  | sequence _ induction =>
      rw [Expression.normalize, normalizeAll_eq_map]
      exact .sequence (List.forall_mem_map.mpr induction)
  | choice filled _ induction =>
      rw [Expression.normalize, normalizeAll_eq_map]
      exact .choice (by simpa using filled) (List.forall_mem_map.mpr induction)
  | repeated greedy limited _ induction => exact induction.repetition limited

theorem matches_of_normalize {expression : Expression} (wellFormed : WellFormed expression)
    (found : Matches text expression.normalize first last) :
    Matches text expression first last := by
  induction wellFormed generalizing first last with
  | empty | set | anchor => exact found
  | group _ _ induction =>
      cases found with
      | group found => exact .group (induction found)
  | @sequence parts wellFormed induction =>
      rw [Expression.normalize, normalizeAll_eq_map] at found
      induction parts generalizing first with
      | nil => exact found
      | cons part parts others =>
          rw [List.forall_mem_cons] at wellFormed induction
          cases found with
          | cons one more => exact .cons (induction.1 one) (others wellFormed.2 induction.2 more)
  | choice _ _ induction =>
      rw [Expression.normalize, normalizeAll_eq_map] at found
      cases found with
      | choice member found =>
          obtain ⟨alternative, among, rfl⟩ := List.mem_map.mp member
          exact .choice among (induction alternative among found)
  | repeated greedy limited _ induction =>
      exact (matches_of_repetition limited found).imp_repeated induction

/-! ## Whole texts -/

def spanning (parts : List Expression) : Expression :=
  sequence (anchor .textStart :: parts ++ [anchor .textEnd])

theorem eq_zero_of_textStart {place : Nat} (inside : place ≤ text.size)
    (holds : Anchor.textStart.holds text place) : place = 0 := by
  rcases Nat.eq_zero_or_pos place with zero | positive
  · exact zero
  · have before : text[place - 1]? = some text[place - 1] :=
      Array.getElem?_eq_getElem (by omega)
    simp [Anchor.holds, Nat.ne_of_gt positive, before] at holds

theorem eq_size_of_textEnd {parts : List Expression}
    (found : Matches text (sequence (parts ++ [anchor .textEnd])) first last) :
    last = text.size := by
  induction parts generalizing first with
  | nil =>
      rcases found with _ | _ | _ | _ | _ | ⟨ends, rest⟩
      cases rest
      cases ends with
      | anchor inside holds =>
          exact Nat.le_antisymm inside (by simpa [Anchor.holds] using holds)
  | cons part parts induction =>
      cases found with
      | cons _ rest => exact induction rest

/-- Between the two ends of the text, nothing but all of it is matched. -/
theorem whole_of_spanning {parts : List Expression}
    (found : Matches text (spanning parts) first last) : first = 0 ∧ last = text.size := by
  cases found with
  | cons starts rest =>
      cases starts with
      | anchor inside holds => exact ⟨eq_zero_of_textStart inside holds, eq_size_of_textEnd rest⟩

end Expression

end Destructure.Regex
