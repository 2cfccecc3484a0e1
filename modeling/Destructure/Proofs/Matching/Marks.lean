import Destructure.Proofs.Matching.Trail

/-!
Any use of the slots. Marks may be taken at any time, and as long as a mark is live the slots can
be taken back to it, which ends the marks taken since then. Whatever is recorded in between, for
whichever nodes and levels, going back to a live mark brings back the state it was taken in.
-/

namespace Destructure

variable {α : Type}

namespace Slots

inductive Request (α : Type) where
  | openList (id level : Nat)
  | bind (id depth : Nat) (value : Value α)
  | mark
  | undo (place : Nat)

structure Usage (α : Type) where
  slots : Slots α
  marked : List (Slots α)

namespace Usage

variable {usage : Usage α}

def step (usage : Usage α) : Request α → Usage α
  | .openList id level => { usage with slots := usage.slots.openList id level }
  | .bind id depth value => { usage with slots := usage.slots.bind id depth value }
  | .mark => { usage with marked := usage.slots :: usage.marked }
  | .undo place =>
    match usage.marked.drop place with
    | [] => usage
    | state :: earlier => ⟨usage.slots.undo state.mark, state :: earlier⟩

def run (usage : Usage α) (requests : List (Request α)) : Usage α :=
  requests.foldl step usage

/-- The trail leads from the slots back to the states of all live marks, and from each of these
to the earlier ones. -/
def Traced (usage : Usage α) : Prop :=
  (usage.slots :: usage.marked).Pairwise fun later earlier => Extends earlier later

theorem Traced.goOn (traced : Traced usage) {later : Slots α}
    (extended : Extends usage.slots later) : Traced { usage with slots := later } := by
  rcases List.pairwise_cons.mp traced with ⟨leads, earlier⟩
  exact List.pairwise_cons.mpr ⟨fun state member => (leads state member).trans extended, earlier⟩

theorem Traced.mark (traced : Traced usage) :
    Traced { usage with marked := usage.slots :: usage.marked } := by
  have leads := (List.pairwise_cons.mp traced).1
  apply List.pairwise_cons.mpr
  refine ⟨?_, traced⟩
  intro state member
  rcases List.mem_cons.mp member with rfl | member
  · exact .refl _
  · exact leads state member

/-- Back at a mark, the slots are related to earlier marks as they were when it was taken. -/
theorem Traced.undo (traced : Traced usage) {state : Slots α} {earlier : List (Slots α)}
    (remaining : state :: earlier <:+ usage.marked) :
    Traced ⟨usage.slots.undo state.mark, state :: earlier⟩ := by
  rcases List.pairwise_cons.mp traced with ⟨leads, among⟩
  have restored : Same (usage.slots.undo state.mark) state :=
    (leads state (remaining.subset List.mem_cons_self)).undo_same
  have kept : Traced ⟨state, earlier⟩ := among.sublist remaining.sublist
  exact kept.mark.goOn (.of_same restored.symm)

theorem Traced.step (traced : Traced usage) (request : Request α) :
    Traced (usage.step request) := by
  cases request with
  | openList id level => exact traced.goOn (extends_openList _ id level)
  | bind id depth value => exact traced.goOn (extends_bind _ id depth value)
  | mark => exact traced.mark
  | undo place =>
      have remaining := List.drop_suffix place usage.marked
      rw [Usage.step]
      cases dropped : usage.marked.drop place with
      | nil => exact traced
      | cons state earlier =>
          rw [dropped] at remaining
          exact traced.undo remaining

theorem Traced.run (traced : Traced usage) (requests : List (Request α)) :
    Traced (usage.run requests) := by
  induction requests generalizing usage with
  | nil => exact traced
  | cons request requests induction => exact induction (traced.step request)

end Usage

/-- However the slots are used, going back to a live mark makes them hold what they held when it
was taken, and cuts the trail to the length that it had. -/
theorem undo_restores_marked (start : Slots α) (requests : List (Request α)) :
    let usage := Usage.run ⟨start, []⟩ requests
    ∀ state ∈ usage.marked,
      Same (usage.slots.undo state.mark) state ∧
        (usage.slots.undo state.mark).trail.size = state.mark := by
  intro usage state member
  have untouched : Usage.Traced ⟨start, []⟩ := List.pairwise_singleton _ _
  have traced : usage.Traced := untouched.run requests
  have restored := ((List.pairwise_cons.mp traced).1 state member).undo_same
  exact ⟨restored, restored.mark_eq⟩

/-- The second list of lists goes, and so does a value that came to stand in place of all lists. The
value that found no list has left nothing to take back. -/
theorem nested_lists_restored :
    let requests : List (Request Nat) := [.openList 0 0, .openList 0 1, .bind 0 2 .nil,
      .bind 1 3 .nil, .mark, .openList 0 1, .mark, .bind 0 0 .nil, .bind 1 0 .nil, .undo 0,
      .bind 0 2 .nil, .openList 1 0]
    let taken := Usage.run ⟨blank 2, []⟩ (requests.take 4)
    let usage := Usage.run ⟨blank 2, []⟩ requests
    taken.slots ∈ usage.marked ∧
    (taken.slots.snapshot [("x", 0), ("y", 1)]).pairs = [("x", .list [.list [.nil]])] ∧
    (usage.slots.snapshot [("x", 0), ("y", 1)]).pairs =
      [("x", .list [.list [.nil], .list [.nil]]), ("y", .list [])] ∧
    Same (usage.slots.undo 3) taken.slots ∧ (usage.slots.undo 3).trail.size = 3 := by
  intro requests taken usage
  have live : taken.slots ∈ usage.marked := List.mem_cons_of_mem _ List.mem_cons_self
  exact ⟨live, rfl, rfl, undo_restores_marked (blank 2) requests taken.slots live⟩

end Slots

end Destructure
