import Destructure.Matching.Slots

/-!
The trail leads back. Whatever is recorded from a state of the slots on, undoing to the mark of
that state restores what the slots held and the trail itself. Only the count of missed lists is
not taken back, so states are compared without it.
-/

namespace Destructure

variable {α : Type}

namespace Entry

theorem updateLatest?_updateLatest? (change back : List (Entry α) → Option (List (Entry α)))
    (inverse : ∀ entries changed, change entries = some changed → back changed = some entries)
    (levels : Nat) (record changed : Entry α)
    (updated : updateLatest? change levels record = some changed) :
    updateLatest? back levels changed = some record := by
  induction levels generalizing record changed with
  | zero =>
      cases record with
      | scalar value => simp [updateLatest?] at updated
      | repetitions entries =>
          simp only [updateLatest?, Option.map_eq_some_iff] at updated
          rcases updated with ⟨entries', changes, rfl⟩
          simp [updateLatest?, inverse entries entries' changes]
  | succ levels induction =>
      cases record with
      | scalar value => simp [updateLatest?] at updated
      | repetitions entries =>
          cases entries with
          | nil => simp [updateLatest?] at updated
          | cons latest earlier =>
              simp only [updateLatest?, Option.map_eq_some_iff] at updated
              rcases updated with ⟨latest', changes, rfl⟩
              simp [updateLatest?, induction latest latest' changes]

theorem pop?_of_push? {entry record changed : Entry α} {levels : Nat}
    (pushed : push? entry levels record = some changed) : pop? levels changed = some record := by
  apply updateLatest?_updateLatest? _ _ _ levels record changed pushed
  intro entries changed changes
  cases changes
  rfl

end Entry

/-! ## What the slots hold -/

abbrev Contents (α : Type) := Array (Option (Entry α))

namespace Contents

def record? (contents : Contents α) (id : Nat) : Option (Entry α) := (contents[id]?).join

/-- Add an entry below so many repetitions: outside of all repetitions it becomes the record
itself, below repetitions the latest element of the latest list. -/
def put (contents : Contents α) (id : Nat) (depth : Nat) (entry : Entry α) : Contents α :=
  match depth with
  | 0 => contents.setIfInBounds id (some entry)
  | outer + 1 =>
    match (contents.record? id).bind (Entry.push? entry outer) with
    | some record => contents.setIfInBounds id (some record)
    | none => contents

theorem setIfInBounds_record? (contents : Contents α) (id : Nat) :
    contents.setIfInBounds id (contents.record? id) = contents := by
  apply Array.ext_getElem?
  intro index
  rw [Array.getElem?_setIfInBounds]
  by_cases equal : id = index
  · subst equal
    by_cases inside : id < contents.size
    · simp [record?, inside]
    · simp [inside]
  · simp [equal]

end Contents

namespace Slots

@[simp] theorem entries_openList (slots : Slots α) (id level : Nat) :
    (slots.openList id level).entries =
      Contents.put slots.entries id level (.repetitions []) := by
  cases level with
  | zero => rfl
  | succ outer =>
      simp only [openList, push, Contents.put, Contents.record?, get?]
      cases ((slots.entries[id]?).join).bind (Entry.push? (.repetitions []) outer) <;> rfl

@[simp] theorem entries_bind (slots : Slots α) (id depth : Nat) (value : Value α) :
    (slots.bind id depth value).entries = Contents.put slots.entries id depth (.scalar value) := by
  cases depth with
  | zero => rfl
  | succ outer =>
      simp only [bind, push, Contents.put, Contents.record?, get?]
      cases ((slots.entries[id]?).join).bind (Entry.push? (.scalar value) outer) <;> rfl

/-! ## Going back -/

structure Same (first second : Slots α) : Prop where
  entries : first.entries = second.entries
  trail : first.trail = second.trail

theorem Same.refl (slots : Slots α) : Same slots slots := ⟨rfl, rfl⟩

theorem Same.symm {first second : Slots α} (same : Same first second) : Same second first :=
  ⟨same.entries.symm, same.trail.symm⟩

theorem Same.trans {first second third : Slots α} (same : Same first second)
    (same' : Same second third) : Same first third :=
  ⟨same.entries.trans same'.entries, same.trail.trans same'.trail⟩

theorem Same.mark_eq {first second : Slots α} (same : Same first second) :
    first.mark = second.mark := by
  rw [mark, mark, same.trail]

theorem Same.revert {first second : Slots α} (same : Same first second) (change : Undo α) :
    Same (first.revert change) (second.revert change) := by
  rcases first with ⟨entries, trail, missed⟩
  rcases second with ⟨entries', trail', missed'⟩
  rcases same with ⟨rfl, rfl⟩
  cases change with
  | restore id former => exact ⟨rfl, rfl⟩
  | pop id levels =>
      simp only [Slots.revert, get?]
      cases ((entries[id]?).join).bind (Entry.pop? levels) with
      | none => exact ⟨rfl, rfl⟩
      | some record => exact ⟨rfl, rfl⟩

theorem Same.undoLatest {first second : Slots α} (same : Same first second) (count : Nat) :
    Same (first.undoLatest count) (second.undoLatest count) := by
  induction count generalizing first second with
  | zero => exact same
  | succ count induction =>
      simp only [Slots.undoLatest]
      rw [← same.trail]
      cases latest : first.trail.back? with
      | none => exact same
      | some change =>
          apply induction
          apply Same.revert
          exact ⟨same.entries, by simp [same.trail]⟩

theorem undoLatest_add (slots : Slots α) (first second : Nat) :
    slots.undoLatest (first + second) = (slots.undoLatest first).undoLatest second := by
  induction first generalizing slots with
  | zero => simp [undoLatest]
  | succ first induction =>
      rw [Nat.add_right_comm]
      simp only [undoLatest]
      cases latest : slots.trail.back? with
      | some change => exact induction _
      | none =>
          cases second with
          | zero => rfl
          | succ second => simp [undoLatest, latest]

structure Extends (slots later : Slots α) : Prop where
  mark_le : slots.mark ≤ later.mark
  undo_same : Same (later.undo slots.mark) slots

theorem Extends.of_same {first second : Slots α} (same : Same first second) :
    Extends first second := by
  refine ⟨Nat.le_of_eq same.mark_eq, ?_⟩
  rw [undo, same.mark_eq, Nat.sub_self]
  exact same.symm

theorem Extends.refl (slots : Slots α) : Extends slots slots := .of_same (.refl slots)

theorem Extends.trans {first second third : Slots α} (extended : Extends first second)
    (extended' : Extends second third) : Extends first third := by
  refine ⟨Nat.le_trans extended.mark_le extended'.mark_le, ?_⟩
  have stages : third.mark - first.mark =
      (third.mark - second.mark) + (second.mark - first.mark) := by
    have := extended.mark_le
    have := extended'.mark_le
    omega
  rw [undo, stages, undoLatest_add]
  exact (extended'.undo_same.undoLatest _).trans extended.undo_same

theorem Extends.undo_of_same {first second third : Slots α} (extended : Extends first second)
    (same : Same second third) : Same (third.undo first.mark) first := by
  have undone := (same.symm.undoLatest (third.mark - first.mark))
  rw [same.symm.mark_eq] at undone
  rw [undo, same.symm.mark_eq]
  exact undone.trans extended.undo_same

theorem undo_of_trail_push {slots : Slots α} (change : Undo α) {mark : Nat}
    (latest : slots.trail = slots.trail.pop.push change) (size : slots.trail.size = mark + 1) :
    slots.undo mark = { slots with trail := slots.trail.pop }.revert change := by
  have last : slots.trail.back? = some change := by rw [latest, Array.back?_push]
  rw [undo, Slots.mark, size, Nat.add_sub_cancel_left]
  simp [undoLatest, last]

theorem extends_replace (slots : Slots α) (id : Nat) (record : Entry α) :
    Extends slots (slots.replace id record) := by
  refine ⟨by simp [replace, mark], ?_⟩
  rw [undo_of_trail_push (.restore id (slots.get? id)) (by simp [replace])
    (by simp [replace, mark])]
  refine ⟨?_, by simp [revert, replace]⟩
  simp only [revert, replace, Array.setIfInBounds_setIfInBounds]
  exact Contents.setIfInBounds_record? slots.entries id

theorem extends_push (slots : Slots α) (id levels : Nat) (entry : Entry α) :
    Extends slots (slots.push id levels entry) := by
  unfold push
  cases pushed : (slots.get? id).bind (Entry.push? entry levels) with
  | none => exact .of_same ⟨rfl, rfl⟩
  | some record =>
      rcases Option.bind_eq_some_iff.mp pushed with ⟨former, present, pushes⟩
      have inside : id < slots.entries.size := by
        rcases Nat.lt_or_ge id slots.entries.size with inside | outside
        · exact inside
        · simp [get?, Array.getElem?_eq_none outside] at present
      refine ⟨by simp [mark], ?_⟩
      rw [undo_of_trail_push (.pop id levels) (by simp) (by simp [mark])]
      have popped := Entry.pop?_of_push? pushes
      simp only [revert, get?, Array.getElem?_setIfInBounds_self_of_lt inside, Option.join_some,
        Option.bind_some, popped, Array.setIfInBounds_setIfInBounds]
      refine ⟨?_, by simp⟩
      rw [← present]
      exact Contents.setIfInBounds_record? slots.entries id

theorem extends_openList (slots : Slots α) (id level : Nat) :
    Extends slots (slots.openList id level) := by
  cases level with
  | zero => exact slots.extends_replace id _
  | succ outer => exact slots.extends_push id outer _

theorem extends_bind (slots : Slots α) (id depth : Nat) (value : Value α) :
    Extends slots (slots.bind id depth value) := by
  cases depth with
  | zero => exact slots.extends_replace id _
  | succ outer => exact slots.extends_push id outer _

end Slots

end Destructure
