import Destructure.Regex.Basic
import Destructure.Regex.Program

/-!
Running a program on a text. Threads are tried in order of preference, and no instruction is
entered twice at the same position: what failed there, or what is preferred there, has been tried
already. So the first thread that accepts is the preferred match, and the number of steps is
bounded by the number of instructions and positions.
-/

namespace Destructure.Regex

structure Thread where
  instruction : Nat
  position : Nat
  slots : List (Nat × Nat)

structure Match where
  start : Nat
  stop : Nat
  slots : List (Nat × Nat)

namespace Program

def advance (program : Program) (text : Array Char) (thread : Thread) : List Thread :=
  match program.instructions[thread.instruction]? with
  | some (.consume set next) =>
    match text[thread.position]? with
    | some character =>
      if set.contains character then
        [{ thread with instruction := next, position := thread.position + 1 }]
      else []
    | none => []
  | some (.check anchor next) =>
    if anchor.holds text thread.position then [{ thread with instruction := next }] else []
  | some (.save slot next) =>
    [{ thread with instruction := next, slots := (slot, thread.position) :: thread.slots }]
  | some (.fork first second) =>
    [{ thread with instruction := first }, { thread with instruction := second }]
  | some .accept | none => []

def accepts (program : Program) (thread : Thread) : Bool :=
  match program.instructions[thread.instruction]? with
  | some .accept => true
  | _ => false

abbrev Visited := Array (Array Bool)

namespace Visited

def contains (visited : Visited) (thread : Thread) : Bool :=
  (visited.getD thread.instruction #[]).getD thread.position false

def insert (visited : Visited) (positions : Nat) (thread : Thread) : Visited :=
  visited.modify thread.instruction fun row =>
    (if row.isEmpty then Array.replicate positions false else row).setIfInBounds
      thread.position true

end Visited

/-- The first of the waiting threads that leads to a match. The allowance bounds the steps. -/
def run (program : Program) (text : Array Char) : (allowance : Nat) → Visited → List Thread →
    Option Thread
  | 0, _, _ => none
  | _, _, [] => none
  | allowance + 1, visited, thread :: waiting =>
    if visited.contains thread then run program text allowance visited waiting
    else if program.accepts thread then some thread
    else
      run program text allowance (visited.insert (text.size + 1) thread)
        (program.advance text thread ++ waiting)

/-- The leftmost match, and of those that start there the preferred one. Each place is entered
once and leads to two threads at most. -/
def search? (program : Program) (text : Array Char) : Option Match :=
  let size := program.instructions.size
  let starts := (List.range (text.size + 1)).map fun position =>
    (⟨program.start, position, [(0, position)]⟩ : Thread)
  (run program text ((2 * size + 1) * (text.size + 1) + 1) (Array.replicate size #[]) starts).map
    fun thread => ⟨(thread.slots.lookup 0).getD 0, thread.position, thread.slots⟩

end Program

namespace Match

def group? (found : Match) (index : Nat) : Option Span :=
  match found.slots.lookup (2 * index), found.slots.lookup (2 * index + 1) with
  | some start, some stop => some ⟨start, stop⟩
  | _, _ => none

def captures (found : Match) (groups : Nat) : Captures :=
  ⟨⟨found.start, found.stop⟩, (List.range groups).map fun index => found.group? (index + 1)⟩

end Match

def Program.recognizer (program : Program) : Recognizer where
  captureCount := program.groups + 1
  captures? text :=
    (program.search? text.toList.toArray).map fun found => found.captures program.groups

def Recognizer.ofSource (source : String) : Except String Recognizer :=
  match Program.ofSource? source.toList with
  | some program => .ok program.recognizer
  | none => .error "the expression is not valid, or it is too large"

/-- The engine that is built in. It knows a part of the usual notation. -/
@[reducible]
def Engine.builtIn : Engine := ⟨Recognizer.ofSource⟩

end Destructure.Regex
