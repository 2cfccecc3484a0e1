import Destructure.Proofs.Matching.Deposits
import Destructure.Matching.Search

/-!
How the lists of repetitions nest. A variable below some repetitions can record only while there is
a list so many levels down in its record. Opening the lists of a repetition adds a level, and
recording below takes none away. As long as every list is there when it is to be changed, taking
back to a mark restores the slots of that mark to the last detail, the count of missed lists
included.
-/

namespace Destructure

variable {α : Type}

namespace Entry

def Reaches : (levels : Nat) → Entry α → Prop
  | _, scalar _ => False
  | 0, repetitions _ => True
  | levels + 1, repetitions (latest :: _) => Reaches levels latest
  | _ + 1, repetitions [] => False

theorem Reaches.of_succ {levels : Nat} {record : Entry α} (reaches : Reaches (levels + 1) record) :
    Reaches levels record := by
  induction levels generalizing record with
  | zero => rcases record with value | entries <;> first | exact reaches | trivial
  | succ levels induction =>
      rcases record with value | ⟨_ | ⟨latest, earlier⟩⟩
      · exact reaches
      · exact reaches
      · exact induction reaches

/-- An entry can be added to a list that is there, and leaves it there. -/
theorem Reaches.push {levels : Nat} {record : Entry α} (reaches : Reaches levels record)
    (entry : Entry α) : ∃ changed, push? entry levels record = some changed ∧
      Reaches levels changed ∧
      (∀ entries, entry = .repetitions entries → Reaches (levels + 1) changed) := by
  induction levels generalizing record with
  | zero =>
      rcases record with value | entries
      · cases reaches
      · refine ⟨_, rfl, trivial, ?_⟩
        rintro inner rfl
        trivial
  | succ levels induction =>
      rcases record with value | ⟨_ | ⟨latest, earlier⟩⟩
      · cases reaches
      · cases reaches
      · rcases induction reaches with ⟨changed, pushed, here, deeper⟩
        refine ⟨.repetitions (changed :: earlier), ?_, here, deeper⟩
        rw [push?] at pushed ⊢
        rw [updateLatest?, pushed, Option.map_some]

end Entry

namespace Contents

def Ready (contents : Contents α) (id : Nat) : (depth : Nat) → Prop
  | 0 => id < contents.size
  | outer + 1 => ∃ record, contents.record? id = some record ∧ record.Reaches outer

theorem lt_size_of_record? {contents : Contents α} {id : Nat} {record : Entry α}
    (present : contents.record? id = some record) : id < contents.size := by
  apply Nat.lt_of_not_le
  intro outside
  rw [record?, Array.getElem?_eq_none outside] at present
  cases present

theorem Ready.of_succ {contents : Contents α} {id depth : Nat}
    (ready : contents.Ready id (depth + 1)) : contents.Ready id depth := by
  rcases ready with ⟨record, present, reaches⟩
  cases depth with
  | zero => exact lt_size_of_record? present
  | succ outer => exact ⟨record, present, reaches.of_succ⟩

theorem record?_setIfInBounds_self {contents : Contents α} {id : Nat}
    (inside : id < contents.size) (record : Option (Entry α)) :
    record? (contents.setIfInBounds id record) id = record := by
  simp [record?, inside]

theorem Ready.put_of_ne {contents : Contents α} {id other depth : Nat}
    (ready : contents.Ready id depth) (different : other ≠ id) (depth' : Nat) (entry : Entry α) :
    (contents.put other depth' entry).Ready id depth := by
  cases depth with
  | zero => exact Nat.lt_of_lt_of_eq ready (contents.size_put other depth' entry).symm
  | succ outer =>
      rcases ready with ⟨record, present, reaches⟩
      exact ⟨record, by rw [put_eq, record?_setIfInBounds_of_ne _ different, present], reaches⟩

/-- An entry that is put leaves room for others, and a list that is put for those within it. -/
theorem Ready.put {contents : Contents α} {id depth : Nat} (ready : contents.Ready id depth)
    (entry : Entry α) :
    (contents.put id depth entry).Ready id depth ∧
      ∀ entries, entry = .repetitions entries →
        (contents.put id depth entry).Ready id (depth + 1) := by
  cases depth with
  | zero =>
      refine ⟨Nat.lt_of_lt_of_eq ready (contents.size_put id 0 entry).symm, ?_⟩
      rintro entries rfl
      exact ⟨.repetitions entries, record?_setIfInBounds_self ready _, trivial⟩
  | succ outer =>
      rcases ready with ⟨record, present, reaches⟩
      rcases reaches.push entry with ⟨changed, pushed, here, deeper⟩
      have changes : record? (contents.put id (outer + 1) entry) id = some changed := by
        rw [Contents.put, present, Option.bind_some, pushed]
        exact record?_setIfInBounds_self (lt_size_of_record? present) _
      exact ⟨⟨changed, changes, here⟩,
        fun entries isList => ⟨changed, changes, deeper entries isList⟩⟩

def Opened (levels : Nat → Option Nat) (contents : Contents α) : Prop :=
  ∀ id depth, levels id = some depth → contents.Ready id depth

def within (ids : List Nat) (depth : Nat) (levels : Nat → Option Nat) : Nat → Option Nat :=
  fun id => if id ∈ ids then some (depth + 1) else levels id

section Opened

variable {levels : Nat → Option Nat} {contents : Contents α}

/-- What can be done within a repetition can be done without it. -/
theorem Opened.of_within {ids : List Nat} {depth : Nat}
    (around : ∀ id ∈ ids, levels id = some depth)
    (opened : Opened (within ids depth levels) contents) : Opened levels contents := by
  intro id depth' level
  by_cases member : id ∈ ids
  · rw [around id member] at level
    cases level
    exact (opened id (depth + 1) (if_pos member)).of_succ
  · exact opened id depth' ((if_neg member).trans level)

theorem Opened.put {id depth : Nat} (opened : Opened levels contents)
    (level : levels id = some depth) (entry : Entry α) :
    Opened levels (contents.put id depth entry) := by
  intro other depth' level'
  by_cases same : id = other
  · subst same
    cases level.symm.trans level'
    exact ((opened id depth level).put entry).1
  · exact (opened other depth' level').put_of_ne same depth entry

theorem Opened.put_list {ids : List Nat} {id depth : Nat}
    (opened : Opened (within ids depth levels) contents)
    (around : ∀ other ∈ ids ++ [id], levels other = some depth) (entries : List (Entry α)) :
    Opened (within (ids ++ [id]) depth levels)
      (contents.put id depth (.repetitions entries)) := by
  intro other depth' level
  by_cases same : id = other
  · subst same
    rw [within, if_pos List.mem_concat_self] at level
    cases level
    have ready := opened.of_within
      (fun other member => around other (List.mem_append_left _ member)) id depth
      (around id List.mem_concat_self)
    exact (ready.put _).2 entries rfl
  · apply Ready.put_of_ne _ same
    apply opened
    simpa [within, Ne.symm same] using level

end Opened

end Contents

namespace Slots

/-- A later state, from which the trail leads back to the earlier one exactly as it was. -/
structure Retraces (slots later : Slots α) : Prop where
  mark_le : slots.mark ≤ later.mark
  undo_eq : later.undo slots.mark = slots

theorem Retraces.refl (slots : Slots α) : Retraces slots slots :=
  ⟨Nat.le_refl _, by rw [undo, Nat.sub_self, undoLatest]⟩

theorem Retraces.trans {first second third : Slots α} (retraces : Retraces first second)
    (retraces' : Retraces second third) : Retraces first third := by
  refine ⟨Nat.le_trans retraces.mark_le retraces'.mark_le, ?_⟩
  have stages : third.mark - first.mark =
      (third.mark - second.mark) + (second.mark - first.mark) := by
    have := retraces.mark_le
    have := retraces'.mark_le
    omega
  rw [undo, stages, undoLatest_add, ← undo, retraces'.undo_eq, ← undo, retraces.undo_eq]

/-- It is enough that taking back misses nothing. -/
theorem Extends.retraces {slots later : Slots α} (extended : Extends slots later)
    (missed : (later.undo slots.mark).missed = slots.missed) : Retraces slots later := by
  refine ⟨extended.mark_le, ?_⟩
  rcases slots with ⟨entries, trail, count⟩
  rcases undone : later.undo (Slots.mark ⟨entries, trail, count⟩) with ⟨entries', trail', count'⟩
  have same := extended.undo_same
  rw [undone] at same missed
  rcases same with ⟨rfl, rfl⟩
  cases missed
  rfl

theorem retraces_replace (slots : Slots α) (id : Nat) (record : Entry α) :
    Retraces slots (slots.replace id record) := by
  apply (slots.extends_replace id record).retraces
  rw [undo_of_trail_push (.restore id (slots.get? id)) (by simp [replace])
    (by simp [replace, mark])]
  rfl

theorem retraces_push {slots : Slots α} {id levels : Nat} (entry : Entry α)
    (ready : Contents.Ready slots.entries id (levels + 1)) :
    Retraces slots (slots.push id levels entry) := by
  apply (slots.extends_push id levels entry).retraces
  rcases ready with ⟨record, present, reaches⟩
  rcases reaches.push entry with ⟨changed, pushed, -⟩
  have recorded : slots.get? id = some record := present
  have inside : id < slots.entries.size := Contents.lt_size_of_record? present
  simp only [push, recorded, Option.bind_some, pushed]
  rw [undo_of_trail_push (.pop id levels) (by simp) (by simp [mark])]
  have popped := Entry.pop?_of_push? pushed
  simp only [revert, get?, Array.getElem?_setIfInBounds_self_of_lt inside, Option.join_some,
    Option.bind_some, popped]

variable {slots : Slots α} {id depth : Nat}

theorem retraces_openList (ready : Contents.Ready slots.entries id depth) :
    Retraces slots (slots.openList id depth) := by
  cases depth with
  | zero => exact slots.retraces_replace id _
  | succ outer => exact retraces_push _ ready

theorem retraces_bind (ready : Contents.Ready slots.entries id depth) (value : Value α) :
    Retraces slots (slots.bind id depth value) := by
  cases depth with
  | zero => exact slots.retraces_replace id _
  | succ outer => exact retraces_push _ ready

end Slots

namespace Matcher

open Contents (Opened within)
open Slots (Retraces)

/-- Where the lists above are there, the lists of a repetition are opened within them. -/
theorem opened_openLists {matcher : Matcher α} {repetition depth : Nat} {ids : List Nat}
    (openers : matcher.openers.getD repetition [] = ids.map fun id => (id, depth))
    {levels : Nat → Option Nat} (around : ∀ id ∈ ids, levels id = some depth)
    {state : SearchState α} (opened : Opened levels state.slots.entries) :
    Retraces state.slots (matcher.openLists repetition state).slots ∧
      Opened (within ids depth levels) (matcher.openLists repetition state).slots.entries := by
  have stepwise : ∀ (slots : Slots α) (done : List Nat),
      (∀ id ∈ done ++ ids, levels id = some depth) →
      Opened (within done depth levels) slots.entries →
      let later := (ids.map fun id => (id, depth)).foldl
        (fun slots opener => slots.openList opener.1 opener.2) slots
      Retraces slots later ∧ Opened (within (done ++ ids) depth levels) later.entries := by
    clear openers around
    induction ids with
    | nil =>
        intro slots done around opened
        exact ⟨.refl slots, by rwa [List.append_nil]⟩
    | cons id ids induction =>
        intro slots done around opened
        rw [List.append_cons] at around ⊢
        have known : ∀ other ∈ done ++ [id], levels other = some depth :=
          fun other member => around other (List.mem_append_left _ member)
        have ready := opened.of_within
          (fun other member => known other (List.mem_append_left _ member)) id depth
          (known id List.mem_concat_self)
        have here : Opened (within (done ++ [id]) depth levels)
            (slots.openList id depth).entries := by
          rw [Slots.entries_openList]
          exact opened.put_list known []
        rcases induction _ _ around here with ⟨retraces, opens⟩
        exact ⟨(Slots.retraces_openList ready).trans retraces, opens⟩
  simp only [openLists, openers]
  refine stepwise state.slots [] around ?_
  intro id depth' level
  exact opened id depth' level

end Matcher

end Destructure
