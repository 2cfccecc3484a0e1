import Destructure.Matching.Bindings

/-!
What the variables of a pattern have recorded so far. Every node has a slot; a variable below
repetitions collects lists there, one level for each repetition around it. Each change leaves an
entry on a trail, and undoing the trail back to a mark restores the slots as they were at the
mark. Lists hold their latest entry first, since that is the end at which they change.
-/

namespace Destructure

inductive Entry (α : Type) where
  | scalar (value : Value α)
  | repetitions (latestFirst : List (Entry α))

namespace Entry

variable {α : Type}

def ofList (entries : List (Entry α)) : Entry α := repetitions entries.reverse

mutual
def toValue : Entry α → Value α
  | scalar value => value
  | repetitions latestFirst => .list (toValues latestFirst [])
termination_by structural entry => entry

def toValues : List (Entry α) → List (Value α) → List (Value α)
  | [], values => values
  | entry :: entries, values => toValues entries (toValue entry :: values)
termination_by structural entries => entries
end

def updateLatest? (change : List (Entry α) → Option (List (Entry α))) :
    (levels : Nat) → Entry α → Option (Entry α)
  | _, scalar _ => none
  | 0, repetitions latestFirst => (change latestFirst).map repetitions
  | levels + 1, repetitions (latest :: earlier) =>
    (updateLatest? change levels latest).map fun latest => repetitions (latest :: earlier)
  | _ + 1, repetitions [] => none

def push? (entry : Entry α) (levels : Nat) (record : Entry α) : Option (Entry α) :=
  updateLatest? (fun entries => some (entry :: entries)) levels record

def pop? (levels : Nat) (record : Entry α) : Option (Entry α) :=
  updateLatest? (fun entries => some entries.tail) levels record

end Entry

inductive Undo (α : Type) where
  | restore (id : Nat) (former : Option (Entry α))
  | pop (id : Nat) (levels : Nat)

structure Slots (α : Type) where
  entries : Array (Option (Entry α))
  trail : Array (Undo α)
  /-- How often a list was to be changed that was not there, which no search does. -/
  missed : Nat

namespace Slots

variable {α : Type}

def blank (size : Nat) : Slots α := ⟨Array.replicate size none, #[], 0⟩

def mark (slots : Slots α) : Nat := slots.trail.size

def get? (slots : Slots α) (id : Nat) : Option (Entry α) := (slots.entries[id]?).join

def revert (slots : Slots α) : Undo α → Slots α
  | .restore id former => { slots with entries := slots.entries.setIfInBounds id former }
  | .pop id levels =>
    match (slots.get? id).bind (Entry.pop? levels) with
    | some record => { slots with entries := slots.entries.setIfInBounds id (some record) }
    | none => { slots with missed := slots.missed + 1 }

def undoLatest : Nat → Slots α → Slots α
  | 0, slots => slots
  | count + 1, slots =>
    match slots.trail.back? with
    | some change => undoLatest count ({ slots with trail := slots.trail.pop }.revert change)
    | none => slots

def undo (slots : Slots α) (mark : Nat) : Slots α := slots.undoLatest (slots.mark - mark)

def replace (slots : Slots α) (id : Nat) (record : Entry α) : Slots α :=
  { slots with
    entries := slots.entries.setIfInBounds id (some record)
    trail := slots.trail.push (.restore id (slots.get? id)) }

def push (slots : Slots α) (id levels : Nat) (entry : Entry α) : Slots α :=
  match (slots.get? id).bind (Entry.push? entry levels) with
  | some record =>
    { slots with
      entries := slots.entries.setIfInBounds id (some record)
      trail := slots.trail.push (.pop id levels) }
  | none => { slots with missed := slots.missed + 1 }

/-- Start a repetition for a variable, given its level among the repetitions around the variable.
The outermost one starts the record anew, others start a list in the latest list above them. -/
def openList (slots : Slots α) (id : Nat) : (level : Nat) → Slots α
  | 0 => slots.replace id (.repetitions [])
  | outer + 1 => slots.push id outer (.repetitions [])

def bind (slots : Slots α) (id : Nat) (depth : Nat) (value : Value α) : Slots α :=
  match depth with
  | 0 => slots.replace id (.scalar value)
  | outer + 1 => slots.push id outer (.scalar value)

def snapshot (slots : Slots α) (names : List (String × Nat)) : Bindings α :=
  ⟨names.filterMap fun (name, id) => (slots.get? id).map fun record => (name, record.toValue)⟩

end Slots

end Destructure
