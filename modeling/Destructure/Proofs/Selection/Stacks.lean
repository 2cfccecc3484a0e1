import Destructure.Proofs.Pattern.Names
import Destructure.Selection.Environment
import Mathlib.Data.List.Basic

/-!
Stacks of values against frames of bindings. Entering a scope adds the values of its frame to the
stack of each name, and leaving it restores the table itself, provided that no stack in the table
is empty. What an environment answers can then be read off the frames of the scopes around.
-/

namespace Destructure

variable {α : Type}

/-! ## Frames -/

abbrev Frames (α : Type) := List (Bindings α)

namespace Frames

def latest? (name : String) (frame : Bindings α) : Option (Value α) :=
  (Named.under name frame.pairs).getLast?

def get? (frames : Frames α) (name : String) : Option (Value α) :=
  frames.findSome? (latest? name)

def depth (frames : Frames α) (name : String) : Nat :=
  (frames.flatMap Bindings.names).count name

def isEmpty (frames : Frames α) : Bool := frames.all Bindings.isEmpty

def stack (frames : Frames α) (name : String) : List (Value α) :=
  frames.flatMap fun frame => (Named.under name frame.pairs).reverse

@[simp] theorem stack_nil (name : String) : stack ([] : Frames α) name = [] := rfl

@[simp] theorem stack_cons (frame : Bindings α) (frames : Frames α) (name : String) :
    stack (frame :: frames) name =
      (Named.under name frame.pairs).reverse ++ stack frames name := rfl

theorem head?_stack (frames : Frames α) (name : String) :
    (frames.stack name).head? = frames.get? name := by
  induction frames with
  | nil => rfl
  | cons frame frames induction =>
      rw [stack_cons, List.head?_append, List.head?_reverse, induction]
      simp only [get?, List.findSome?_cons, latest?]
      cases (Named.under name frame.pairs).getLast? <;> rfl

theorem length_under (name : String) (pairs : Named (Value α)) :
    (Named.under name pairs).length = (Named.names pairs).count name := by
  induction pairs with
  | nil => rfl
  | cons pair pairs induction =>
      rw [Named.names, List.map_cons, List.count_cons, ← Named.names, ← induction, Named.under,
        List.filterMap_cons]
      by_cases same : pair.1 = name
      · simp [same, Named.under]
      · simp [same, Named.under]

theorem length_stack (frames : Frames α) (name : String) :
    (frames.stack name).length = frames.depth name := by
  induction frames with
  | nil => rfl
  | cons frame frames induction =>
      rw [stack_cons, List.length_append, List.length_reverse, length_under, induction, depth,
        depth, List.flatMap_cons, List.count_append]
      rfl

theorem isEmpty_iff (frames : Frames α) :
    frames.isEmpty = true ↔ ∀ name, frames.stack name = [] := by
  have bound : ∀ frame : Bindings α,
      frame.isEmpty = true ↔ ∀ name, Named.under name frame.pairs = [] := by
    rintro ⟨pairs⟩
    cases pairs with
    | nil => simp [Bindings.isEmpty, Named.under]
    | cons pair pairs =>
        constructor
        · intro none
          cases none
        · intro none
          simpa [Named.under] using none pair.1
  simp only [isEmpty, List.all_eq_true, stack, List.flatMap_eq_nil_iff, List.reverse_eq_nil_iff,
    bound]
  constructor
  · intro none name frame member
    exact none frame member name
  · intro none frame member name
    exact none name frame member

def without (frames : Frames α) (name : String) : Frames α :=
  frames.map fun frame => ⟨frame.pairs.filter fun pair => pair.1 != name⟩

theorem stack_without (frames : Frames α) (name other : String) :
    (frames.without name).stack other = if other = name then [] else frames.stack other := by
  induction frames with
  | nil => simp [without]
  | cons frame frames induction =>
      have kept : Named.under other (frame.pairs.filter fun pair => pair.1 != name) =
          if other = name then [] else Named.under other frame.pairs := by
        split
        · rename_i same
          apply Named.under_eq_nil
          simp [Named.names, same]
        · rename_i different
          rw [Named.under, Named.under, List.filterMap_filter]
          apply List.filterMap_congr
          intro pair _
          by_cases same : pair.1 = other
          · simp [same, different]
          · simp [same]
      rw [without, List.map_cons, stack_cons, ← without, induction, kept, stack_cons]
      split <;> rfl

end Frames

namespace Environment

/-! ## Single stacks -/

theorem stack_push (environment : Environment α) (name other : String) (value : Value α) :
    (environment.push name value).stack other =
      if name = other then value :: environment.stack other else environment.stack other := by
  rcases environment with ⟨table⟩
  simp only [push, stack]
  induction table with
  | nil =>
      by_cases same : name = other
      · simp [pushOnto, same]
      · have different : (other == name) = false := by simpa using Ne.symm same
        simp [pushOnto, List.lookup_cons, different, same]
  | cons entry table induction =>
      rcases entry with ⟨present, values⟩
      by_cases here : present = name
      · subst here
        by_cases same : present = other
        · simp [pushOnto, same]
        · have different : (other == present) = false := by simpa using Ne.symm same
          simp [pushOnto, List.lookup_cons, different, same]
      · rw [pushOnto, if_neg here]
        by_cases found : other = present
        · subst found
          simp [Ne.symm here]
        · have different : (other == present) = false := by simpa using found
          simpa only [List.lookup_cons, different] using induction

def Occupied (environment : Environment α) : Prop := ∀ entry ∈ environment.table, entry.2 ≠ []

theorem occupied_empty : (empty : Environment α).Occupied := List.forall_mem_nil _

theorem Occupied.push {environment : Environment α} (occupied : environment.Occupied)
    (name : String) (value : Value α) : (environment.push name value).Occupied := by
  rcases environment with ⟨table⟩
  simp only [Occupied, Environment.push] at occupied ⊢
  induction table with
  | nil => simp [pushOnto]
  | cons entry table induction =>
      have others := induction fun other member => occupied other (List.mem_cons_of_mem _ member)
      rw [pushOnto]
      split
      · intro other member
        rcases List.mem_cons.mp member with rfl | later
        · exact List.cons_ne_nil _ _
        · exact occupied other (List.mem_cons_of_mem _ later)
      · exact List.forall_mem_cons.mpr ⟨occupied _ List.mem_cons_self, others⟩

theorem Occupied.pop {environment : Environment α} (occupied : environment.Occupied)
    (name : String) : (environment.pop name).Occupied := by
  rcases environment with ⟨table⟩
  simp only [Occupied, Environment.pop] at occupied ⊢
  induction table with
  | nil => exact occupied
  | cons entry table induction =>
      rcases List.forall_mem_cons.mp occupied with ⟨here, later⟩
      rw [popFrom]
      split
      · split
        · exact later
        · exact List.forall_mem_cons.mpr ⟨‹_›, later⟩
      · exact List.forall_mem_cons.mpr ⟨here, induction later⟩

/-- Taking off a value restores the table, as no stack in it is empty. -/
theorem pop_push {environment : Environment α} (occupied : environment.Occupied) (name : String)
    (value : Value α) : (environment.push name value).pop name = environment := by
  rcases environment with ⟨table⟩
  simp only [Occupied, push, pop] at occupied ⊢
  congr 1
  induction table with
  | nil => simp [pushOnto, popFrom]
  | cons entry table induction =>
      rcases List.forall_mem_cons.mp occupied with ⟨here, later⟩
      rw [pushOnto]
      by_cases same : entry.1 = name
      · rw [if_pos same, popFrom, if_pos same, List.tail_cons]
        split
        · exact absurd ‹entry.2 = []› here
        · rfl
      · rw [if_neg same, popFrom, if_neg same, induction later]

/-! ## Scopes -/

theorem Occupied.enter {environment : Environment α} (occupied : environment.Occupied)
    (bindings : Bindings α) : (environment.enter bindings).Occupied := by
  rcases bindings with ⟨pairs⟩
  simp only [Environment.enter]
  induction pairs generalizing environment with
  | nil => exact occupied
  | cons pair pairs induction => exact induction (occupied.push pair.1 pair.2)

theorem Occupied.leave {environment : Environment α} (occupied : environment.Occupied)
    (names : List String) : (environment.leave names).Occupied := by
  simp only [Environment.leave]
  generalize names.reverse = order
  induction order generalizing environment with
  | nil => exact occupied
  | cons name order induction => exact induction (occupied.pop name)

/-- Entering a scope puts the values of its frame on top of each stack. -/
theorem stack_enter (environment : Environment α) (bindings : Bindings α) (name : String) :
    (environment.enter bindings).stack name =
      (Named.under name bindings.pairs).reverse ++ environment.stack name := by
  rcases bindings with ⟨pairs⟩
  simp only [enter]
  induction pairs generalizing environment with
  | nil => rfl
  | cons pair pairs induction =>
      rw [List.foldl_cons, induction, stack_push]
      by_cases same : pair.1 = name
      · simp [Named.under, same]
      · simp [Named.under, same]

/-- Leaving a scope undoes entering it. -/
theorem leave_enter {environment : Environment α} (occupied : environment.Occupied)
    (bindings : Bindings α) :
    (environment.enter bindings).leave bindings.names = environment := by
  rcases bindings with ⟨pairs⟩
  simp only [enter, leave, Bindings.names]
  induction pairs generalizing environment with
  | nil => rfl
  | cons pair pairs induction =>
      have inner := induction (occupied.push pair.1 pair.2)
      rw [List.map_cons, List.reverse_cons, List.foldl_append, List.foldl_cons (l := pairs), inner]
      exact pop_push occupied pair.1 pair.2

/-! ## Environments and frames -/

/-- The environment holds what the frames bind. -/
def Shows (environment : Environment α) (frames : Frames α) : Prop :=
  ∀ name, environment.stack name = frames.stack name

section Shows

variable {environment : Environment α} {frames : Frames α}

theorem shows_empty : (empty : Environment α).Shows [] := fun _ => rfl

theorem Shows.enter (shows_ : environment.Shows frames) (bindings : Bindings α) :
    (environment.enter bindings).Shows (bindings :: frames) := by
  intro name
  rw [stack_enter, shows_ name, Frames.stack_cons]

theorem Shows.get?_eq (shows_ : environment.Shows frames) (name : String) :
    environment.get? name = frames.get? name := by
  rw [get?, shows_ name, Frames.head?_stack]

theorem Shows.depth_eq (shows_ : environment.Shows frames) (name : String) :
    environment.depth name = frames.depth name := by
  rw [depth, shows_ name, Frames.length_stack]

theorem Shows.isEmpty_eq (shows_ : environment.Shows frames) (occupied : environment.Occupied) :
    environment.isEmpty = frames.isEmpty := by
  rw [Bool.eq_iff_iff, Frames.isEmpty_iff, isEmpty, List.isEmpty_iff]
  constructor
  · intro blank name
    rw [← shows_ name, stack, blank]
    rfl
  · intro blank
    cases entries : environment.table with
    | nil => rfl
    | cons entry table =>
        have first := (shows_ entry.1).trans (blank entry.1)
        have present : entry ∈ environment.table := entries ▸ List.mem_cons_self
        rw [stack, entries, List.lookup_cons_self] at first
        exact absurd first (occupied entry present)

end Shows

/-! ## What environments come to be -/

inductive Reachable : Environment α → Prop where
  | empty : Reachable empty
  | enter {environment : Environment α} (bindings : Bindings α) (before : Reachable environment) :
      Reachable (environment.enter bindings)
  | leave {environment : Environment α} (names : List String) (before : Reachable environment) :
      Reachable (environment.leave names)

theorem Reachable.occupied {environment : Environment α} (reachable : environment.Reachable) :
    environment.Occupied := by
  induction reachable with
  | empty => exact occupied_empty
  | enter bindings before induction => exact induction.enter bindings
  | leave names before induction => exact induction.leave names

/-- Whatever the stacks of an environment are, some frames bind that. -/
theorem exists_shows (environment : Environment α) : ∃ frames, environment.Shows frames := by
  rcases environment with ⟨table⟩
  induction table with
  | nil => exact ⟨[], shows_empty⟩
  | cons entry table induction =>
      rcases entry with ⟨present, values⟩
      rcases induction with ⟨frames, holds⟩
      refine ⟨⟨values.reverse.map fun value => (present, value)⟩ :: frames.without present, ?_⟩
      intro name
      rw [Frames.stack_cons, Frames.stack_without, stack, List.lookup_cons]
      by_cases same : name = present
      · simp [same, Named.under, List.filterMap_map]
      · have different : (name == present) = false := by simpa using same
        have absent : Named.under name (values.reverse.map fun value => (present, value)) = [] := by
          apply Named.under_eq_nil
          intro member
          rw [Named.names, List.map_map] at member
          rcases List.mem_map.mp member with ⟨value, -, equal⟩
          exact same equal.symm
        rw [different, absent, if_neg same]
        exact holds name

end Environment

end Destructure
