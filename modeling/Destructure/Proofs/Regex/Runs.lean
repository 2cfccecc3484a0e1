import Destructure.Proofs.Regex.Matches
import Destructure.Regex.Search

/-!
Paths through a program. What a search finds is the end of a path from the start of the program to
an instruction that accepts. Which stretch of the text lies on the way is read off the paths from
one instruction to another: each instruction adds what it takes itself, and what follows one
another is put together.

Main statement: `Program.exists_path_of_search?`.
-/

namespace Destructure.Regex

namespace Program

inductive Path (program : Program) (text : Array Char) : Nat → Thread → Thread → Prop
  | here (thread : Thread) : Path program text 0 thread thread
  | step {steps : Nat} {thread next last : Thread} : next ∈ program.advance text thread →
      Path program text steps next last → Path program text (steps + 1) thread last

variable {program : Program} {text : Array Char} {thread last : Thread}

/-! ## Paths of a search -/

theorem exists_path_of_run {allowance : Nat} {visited : Visited} {threads : List Thread}
    (found : run program text allowance visited threads = some last) :
    program.accepts last ∧ ∃ thread ∈ threads, ∃ steps, Path program text steps thread last := by
  induction allowance generalizing visited threads with
  | zero => cases found
  | succ allowance induction =>
      cases threads with
      | nil => cases found
      | cons first waiting =>
          rw [run] at found
          split at found
          · obtain ⟨accepting, thread, member, path⟩ := induction found
            exact ⟨accepting, thread, List.mem_cons_of_mem _ member, path⟩
          · split at found
            next accepting =>
              cases found
              exact ⟨accepting, _, List.mem_cons_self, 0, .here _⟩
            next =>
              obtain ⟨accepting, thread, member, steps, path⟩ := induction found
              rcases List.mem_append.mp member with goesOn | waits
              · exact ⟨accepting, first, List.mem_cons_self, steps + 1, .step goesOn path⟩
              · exact ⟨accepting, thread, List.mem_cons_of_mem _ waits, steps, path⟩

theorem exists_path_of_search? {found : Match} (finds : program.search? text = some found) :
    ∃ position steps last, position ≤ text.size ∧
      Path program text steps ⟨program.start, position, [(0, position)]⟩ last ∧
      program.accepts last ∧
      found = ⟨(last.slots.lookup 0).getD 0, last.position, last.slots⟩ := by
  rw [search?, Option.map_eq_some_iff] at finds
  obtain ⟨last, ran, rfl⟩ := finds
  obtain ⟨accepting, thread, member, steps, path⟩ := exists_path_of_run ran
  obtain ⟨position, within, rfl⟩ := List.mem_map.mp member
  rw [List.mem_range] at within
  exact ⟨position, steps, last, by omega, path, accepting, rfl⟩

/-! ## Ways from one instruction to another -/

structure Crosses (text : Array Char) (stretch : Nat → Nat → Prop) (thread next : Thread) :
    Prop where
  inside : next.position ≤ text.size
  between : stretch thread.position next.position
  recorded : next.slots.lookup 0 = thread.slots.lookup 0

/-- A path of so many steps comes by an instruction with no more steps to go, behind a stretch of
the text that has the property. The steps are what loops are reasoned about by. -/
def ComesBy (program : Program) (text : Array Char) (next : Nat) (stretch : Nat → Nat → Prop)
    (last : Thread) (steps : Nat) (thread : Thread) : Prop :=
  ∃ fewer passed, fewer ≤ steps ∧ Path program text fewer passed last ∧
    passed.instruction = next ∧ Crosses text stretch thread passed

def Passes (program : Program) (text : Array Char) (start next : Nat)
    (stretch : Nat → Nat → Prop) : Prop :=
  ∀ steps thread last, thread.instruction = start → thread.position ≤ text.size →
    Path program text steps thread last → program.accepts last →
    ComesBy program text next stretch last steps thread

section Ways

variable {start between next steps fewer : Nat} {before behind whole : Nat → Nat → Prop}
variable {passed : Thread}

theorem ComesBy.after (less : fewer ≤ steps) (crosses : Crosses text before thread passed)
    (comes : ComesBy program text next behind last fewer passed)
    (together : ∀ {one two three}, before one two → behind two three → whole one three) :
    ComesBy program text next whole last steps thread := by
  obtain ⟨few, final, lesser, rest, arrives, crosses'⟩ := comes
  exact ⟨few, final, Nat.le_trans lesser less, rest, arrives, crosses'.inside,
    together crosses.between crosses'.between, crosses'.recorded.trans crosses.recorded⟩

theorem Passes.here (holds : ∀ place, whole place place) :
    Passes program text start start whole :=
  fun steps thread _ starts inside path _ =>
    ⟨steps, thread, Nat.le_refl _, path, starts, inside, holds _, rfl⟩

theorem Passes.trans (first : Passes program text start between before)
    (second : Passes program text between next behind)
    (together : ∀ {one two three}, before one two → behind two three → whole one three) :
    Passes program text start next whole := by
  intro steps thread last starts inside path accepting
  obtain ⟨fewer, middle, less, rest, arrives, crosses⟩ :=
    first steps thread last starts inside path accepting
  exact (second fewer middle last arrives crosses.inside rest accepting).after less crosses together

theorem Passes.imp (passes : Passes program text start next before)
    (implies : ∀ {one two}, before one two → whole one two) :
    Passes program text start next whole :=
  passes.trans (.here fun _ => rfl) fun one same => same ▸ implies one

end Ways

/-- A thread at an instruction that does not accept takes a step before it comes to accept. -/
theorem Path.exists_step {steps : Nat} {instruction : Instruction}
    (path : Path program text steps thread last) (accepting : program.accepts last)
    (found : program.instructions[thread.instruction]? = some instruction)
    (other : instruction ≠ .accept) :
    ∃ fewer next, steps = fewer + 1 ∧ next ∈ program.advance text thread ∧
      Path program text fewer next last := by
  cases path with
  | here =>
      unfold accepts at accepting
      rw [found] at accepting
      split at accepting
      next equal => exact absurd (Option.some.inj equal) other
      next => cases accepting
  | step goesOn rest => exact ⟨_, _, rfl, goesOn, rest⟩

section Instructions

variable {place next : Nat}

theorem passes_consume {set : CharacterSet}
    (found : program.instructions[place]? = some (.consume set next)) :
    Passes program text place next (Expression.Matches text (.set set)) := by
  rintro steps thread last rfl inside path accepting
  obtain ⟨fewer, reached, rfl, goesOn, rest⟩ := path.exists_step accepting found (by simp)
  rw [advance, found] at goesOn
  dsimp only at goesOn
  split at goesOn
  next character taken =>
    split at goesOn
    next contained =>
      obtain rfl := List.mem_singleton.mp goesOn
      exact ⟨fewer, _, Nat.le_succ _, rest, rfl, (Array.getElem?_eq_some_iff.mp taken).1,
        .set taken contained, rfl⟩
    next => cases goesOn
  next => cases goesOn

theorem passes_check {condition : Anchor}
    (found : program.instructions[place]? = some (.check condition next)) :
    Passes program text place next (Expression.Matches text (.anchor condition)) := by
  rintro steps thread last rfl inside path accepting
  obtain ⟨fewer, reached, rfl, goesOn, rest⟩ := path.exists_step accepting found (by simp)
  rw [advance, found] at goesOn
  dsimp only at goesOn
  split at goesOn
  next holds =>
    obtain rfl := List.mem_singleton.mp goesOn
    exact ⟨fewer, _, Nat.le_succ _, rest, rfl, inside, .anchor inside holds, rfl⟩
  next => cases goesOn

theorem passes_save {slot : Nat} (found : program.instructions[place]? = some (.save slot next))
    (other : slot ≠ 0) : Passes program text place next Eq := by
  rintro steps thread last rfl inside path accepting
  obtain ⟨fewer, reached, rfl, goesOn, rest⟩ := path.exists_step accepting found (by simp)
  rw [advance, found] at goesOn
  obtain rfl := List.mem_singleton.mp goesOn
  have notFirst : (0 == slot) = false := beq_false_of_ne (Ne.symm other)
  exact ⟨fewer, _, Nat.le_succ _, rest, rfl, inside, rfl, by rw [List.lookup_cons, notFirst]⟩

section Forks

variable {greedy : Bool} {body leave : Nat} {stretch : Nat → Nat → Prop}
variable (found : program.instructions[place]? = some (repeatFork greedy body leave))
include found

/-- A fork goes on at one of its targets, with a step less to go. -/
theorem exists_of_fork {steps : Nat} (starts : thread.instruction = place)
    (inside : thread.position ≤ text.size) (path : Path program text steps thread last)
    (accepting : program.accepts last) :
    ∃ fewer reached, fewer < steps ∧ Path program text fewer reached last ∧
      (reached.instruction = body ∨ reached.instruction = leave) ∧
      Crosses text Eq thread reached := by
  subst starts
  cases greedy
  all_goals
    obtain ⟨fewer, reached, rfl, goesOn, rest⟩ :=
      path.exists_step accepting found (by simp [repeatFork])
    rw [advance, found] at goesOn
    simp only [repeatFork, if_true, Bool.false_eq_true, if_false, List.mem_cons, List.not_mem_nil,
      or_false] at goesOn
    rcases goesOn with rfl | rfl
  · exact ⟨fewer, _, Nat.lt_succ_self _, rest, .inr rfl, inside, rfl, rfl⟩
  · exact ⟨fewer, _, Nat.lt_succ_self _, rest, .inl rfl, inside, rfl, rfl⟩
  · exact ⟨fewer, _, Nat.lt_succ_self _, rest, .inl rfl, inside, rfl, rfl⟩
  · exact ⟨fewer, _, Nat.lt_succ_self _, rest, .inr rfl, inside, rfl, rfl⟩

theorem passes_fork (taken : Passes program text body next stretch)
    (left : Passes program text leave next stretch) :
    Passes program text place next stretch := by
  intro steps thread last starts inside path accepting
  obtain ⟨fewer, reached, less, rest, target, crosses⟩ :=
    exists_of_fork found starts inside path accepting
  have comes : ComesBy program text next stretch last fewer reached := by
    rcases target with arrives | arrives
    · exact taken fewer reached last arrives crosses.inside rest accepting
    · exact left fewer reached last arrives crosses.inside rest accepting
  exact comes.after (Nat.le_of_lt less) crosses fun same one => same ▸ one

/-- A fork with a body that leads back to it is left after any number of passes of the body. -/
theorem passes_loop {once : Nat → Nat → Prop} (returns : Passes program text body place once)
    (nothing : ∀ position, stretch position position)
    (more : ∀ {one two three}, once one two → stretch two three → stretch one three) :
    Passes program text place leave stretch := by
  intro steps
  induction steps using Nat.strongRecOn with
  | ind steps induction =>
      intro thread last starts inside path accepting
      obtain ⟨fewer, reached, less, rest, target, crosses⟩ :=
        exists_of_fork found starts inside path accepting
      have comes : ComesBy program text leave stretch last fewer reached := by
        rcases target with enters | leaves
        · obtain ⟨few, back, lesser, rest, arrives, crosses⟩ :=
            returns fewer reached last enters crosses.inside rest accepting
          have later := induction few (by omega) back last arrives crosses.inside rest accepting
          exact later.after lesser crosses more
        · exact ⟨fewer, reached, Nat.le_refl _, rest, leaves, crosses.inside, nothing _, rfl⟩
      exact comes.after (Nat.le_of_lt less) crosses fun same one => same ▸ one

end Forks

end Instructions

end Program

end Destructure.Regex
