import Destructure.Proofs.Regex.Runs

/-!
What a program that is built from an expression matches. The instruction to go on with is known
before a stretch of the program is built, and a stretch keeps the instructions before it. So a path
that enters it leaves it at that instruction, and the text on the way is one that the expression
matches.

Main statement: `Program.matches_of_search?`.
-/

namespace Destructure.Regex.Program

/-! ## Stretches of a program -/

structure Extends (earlier later : Array Instruction) : Prop where
  size_le : earlier.size ≤ later.size
  kept : ∀ index < earlier.size, later[index]? = earlier[index]?

namespace Extends

variable {earlier later last : Array Instruction}

theorem refl (instructions : Array Instruction) : Extends instructions instructions :=
  ⟨Nat.le_refl _, fun _ _ => rfl⟩

theorem trans (first : Extends earlier later) (second : Extends later last) :
    Extends earlier last := by
  refine ⟨Nat.le_trans first.size_le second.size_le, fun index inside => ?_⟩
  rw [second.kept index (Nat.lt_of_lt_of_le inside first.size_le), first.kept index inside]

theorem push (extension : Extends earlier later) (instruction : Instruction) :
    Extends earlier (later.push instruction) := by
  refine extension.trans ⟨by simp, fun index inside => ?_⟩
  rw [Array.getElem?_push, if_neg (Nat.ne_of_lt inside)]

/-- What has been added may be replaced. -/
theorem set {index : Nat} (extension : Extends earlier later) (added : earlier.size ≤ index)
    (instruction : Instruction) : Extends earlier (later.setIfInBounds index instruction) := by
  refine ⟨by simpa using extension.size_le, fun place inside => ?_⟩
  rw [Array.getElem?_setIfInBounds_ne (by omega), extension.kept place inside]

end Extends

def Has (program : Program) (earlier later : Array Instruction) : Prop :=
  ∀ index, earlier.size ≤ index → index < later.size → program.instructions[index]? = later[index]?

namespace Has

variable {program : Program} {earlier between later : Array Instruction}
variable {instruction : Instruction}

theorem before (has : Has program earlier later) (extension : Extends between later) :
    Has program earlier between := by
  intro index outside inside
  rw [has index outside (Nat.lt_of_lt_of_le inside extension.size_le), extension.kept index inside]

theorem behind (has : Has program earlier later) (extension : Extends earlier between) :
    Has program between later :=
  fun index outside inside => has index (Nat.le_trans extension.size_le outside) inside

/-- The instruction that was added last is where the stretch starts. -/
theorem last (has : Has program earlier (later.push instruction))
    (extension : Extends earlier later) :
    program.instructions[later.size]? = some instruction := by
  rw [has _ extension.size_le (by simp), Array.getElem?_push_size]

end Has

/-- A way to build stretches of a program, such that a path through what is built goes on behind a
stretch of the text with the property. -/
structure Builds (text : Array Char) (body : Nat → Array Instruction → Stretch)
    (property : Nat → Nat → Prop) : Prop where
  extension : ∀ next instructions, Extends instructions (body next instructions).2
  passes : ∀ next instructions program, Has program instructions (body next instructions).2 →
    Passes program text (body next instructions).1 next property

variable {text : Array Char} {program : Program} {next : Nat} {instructions : Array Instruction}
variable {body : Nat → Array Instruction → Stretch}

/-! ## Repetitions -/

section Repetitions

variable {expression : Expression} {minimum : Nat} {maximum : Option Nat} {greedy : Bool}
variable (builds : Builds text body (expression.Matches text))
include builds

/-- What a repetition matches, in front of which the body stands once more. -/
theorem passes_more {goal : Nat} (has : Has program instructions (body next instructions).2)
    (passes : Passes program text next goal
      ((Expression.repeated expression minimum maximum greedy).Matches text)) :
    Passes program text (body next instructions).1 goal
      ((Expression.repeated expression (minimum + 1) (maximum.map (· + 1)) greedy).Matches
        text) := by
  refine (builds.passes next instructions program has).trans passes fun one others => ?_
  refine .more ?_ one ?_
  · cases maximum <;> simp
  · simpa [Option.map_map, Function.comp_def] using others

theorem extends_copies (count next : Nat) (instructions : Array Instruction) :
    Extends instructions (copies body count next instructions).2 := by
  induction count generalizing next instructions with
  | zero => exact .refl instructions
  | succ count induction => exact (builds.extension _ _).trans (induction _ _)

theorem passes_copies {goal : Nat} (count : Nat)
    (has : Has program instructions (copies body count next instructions).2)
    (passes : Passes program text next goal
      ((Expression.repeated expression minimum maximum greedy).Matches text)) :
    Passes program text (copies body count next instructions).1 goal
      ((Expression.repeated expression (minimum + count) (maximum.map (· + count)) greedy).Matches
        text) := by
  induction count generalizing next instructions minimum maximum with
  | zero => simpa [copies] using passes
  | succ count induction =>
      have others := extends_copies builds count (body next instructions).1
        (body next instructions).2
      have once := passes_more builds (has.before others) passes
      have copied := induction (has.behind (builds.extension _ _)) once
      simpa [copies, Option.map_map, Function.comp_def, Nat.add_assoc, Nat.add_comm 1] using copied

theorem extends_optionalCopies (leave count next : Nat) (instructions : Array Instruction) :
    Extends instructions (optionalCopies body greedy leave count next instructions).2 := by
  induction count generalizing next instructions with
  | zero => exact .refl instructions
  | succ count induction => exact ((builds.extension _ _).push _).trans (induction _ _)

theorem passes_optionalCopies {leave limit : Nat} (count : Nat)
    (has : Has program instructions (optionalCopies body greedy leave count next instructions).2)
    (passes : Passes program text next leave
      ((Expression.repeated expression 0 (some limit) greedy).Matches text)) :
    Passes program text (optionalCopies body greedy leave count next instructions).1 leave
      ((Expression.repeated expression 0 (some (limit + count)) greedy).Matches text) := by
  induction count generalizing next instructions limit with
  | zero => exact passes
  | succ count induction =>
      have extension := builds.extension next instructions
      have has' := has.before (extends_optionalCopies builds leave count _ _)
      have once := passes_more builds (has'.before ((Extends.refl _).push _)) passes
      have chosen : Passes program text (body next instructions).2.size leave
          ((Expression.repeated expression 0 (some (limit + 1)) greedy).Matches text) :=
        passes_fork (has'.last extension) (once.imp .fewer) (.here .done)
      have copied := induction (has.behind (extension.push _)) chosen
      rwa [Nat.add_assoc, Nat.add_comm 1] at copied

theorem extends_onceOrMore (next : Nat) (instructions : Array Instruction) :
    Extends instructions (onceOrMore body greedy next instructions).2 :=
  (((Extends.refl _).push _).trans (builds.extension _ _)).set (Nat.le_refl _) _

section Forked

variable (has : Has program instructions (onceOrMore body greedy next instructions).2)
include has

/-- The body goes on at the fork in front of it, which is filled in afterwards. -/
theorem passes_forked : Passes program text (onceOrMore body greedy next instructions).1
    instructions.size (expression.Matches text) := by
  refine builds.passes _ _ program fun index outside inside => ?_
  rw [Array.size_push] at outside
  rw [has index (by omega) (by simpa [onceOrMore, add] using inside)]
  exact Array.getElem?_setIfInBounds_ne (by omega)

theorem passes_anyNumber : Passes program text instructions.size next
    ((Expression.repeated expression 0 none greedy).Matches text) := by
  have extension := builds.extension instructions.size (instructions.push (.fork next next))
  have within : instructions.size <
      (body instructions.size (instructions.push (.fork next next))).2.size :=
    Nat.lt_of_lt_of_le (by simp) extension.size_le
  have forked := (has instructions.size (Nat.le_refl _)
    (by simpa [onceOrMore, add] using within)).trans
      (Array.getElem?_setIfInBounds_self_of_lt within)
  exact passes_loop forked (passes_forked builds has) .done fun one others =>
    .more (by simp) one (by simpa using others)

theorem passes_onceOrMore : Passes program text (onceOrMore body greedy next instructions).1 next
    ((Expression.repeated expression 1 none greedy).Matches text) :=
  (passes_forked builds has).trans (passes_anyNumber builds has) fun one others =>
    .more (by simp) one (by simpa using others)

end Forked

theorem builds_repetition (consumes : Bool) (limited : ∀ most ∈ maximum, minimum ≤ most) :
    Builds text (repetition body consumes minimum maximum greedy)
      ((Expression.repeated expression minimum maximum greedy).Matches text) := by
  cases maximum with
  | some maximum =>
      have limited := limited maximum rfl
      constructor
      · intro next instructions
        exact (extends_optionalCopies builds next _ _ _).trans (extends_copies builds _ _ _)
      · intro next instructions program has
        have nothing : Passes program text next next
            ((Expression.repeated expression 0 (some 0) greedy).Matches text) := .here .done
        have optional := passes_optionalCopies builds (maximum - minimum)
          (has.before (extends_copies builds _ _ _)) nothing
        have copied := passes_copies builds minimum
          (has.behind (extends_optionalCopies builds next _ _ _)) optional
        simpa [repetition, Nat.sub_add_cancel limited] using copied
  | none =>
      match minimum, consumes with
      | 0, true => exact ⟨extends_onceOrMore builds, fun _ _ _ => passes_anyNumber builds⟩
      | 0, false =>
          have extension : ∀ next instructions,
              Extends instructions (onceOrMore body greedy next instructions).2 :=
            extends_onceOrMore builds
          refine ⟨fun next instructions => (extension next instructions).push _,
            fun next instructions program has => ?_⟩
          have once := passes_onceOrMore builds (has.before ((Extends.refl _).push _))
          exact passes_fork (has.last (extension next instructions)) (once.imp .fewer)
            (.here .done)
      | fewer + 1, _ =>
          refine ⟨fun next instructions =>
            (extends_onceOrMore builds next instructions).trans (extends_copies builds _ _ _),
            fun next instructions program has => ?_⟩
          have once := passes_onceOrMore builds (has.before (extends_copies builds _ _ _))
          have copied := passes_copies builds fewer
            (has.behind (extends_onceOrMore builds next instructions)) once
          rwa [Nat.add_comm 1] at copied

end Repetitions

/-! ## Building an expression -/

theorem builds_next {property : Nat → Nat → Prop} (holds : ∀ place, property place place) :
    Builds text (fun next instructions => (next, instructions)) property :=
  ⟨fun _ instructions => .refl instructions, fun _ _ _ _ => .here holds⟩

theorem builds_instruction {instruction : Nat → Instruction} {property : Nat → Nat → Prop}
    (passes : ∀ program place next, program.instructions[place]? = some (instruction next) →
      Passes program text place next property) :
    Builds text (fun next => add (instruction next)) property :=
  ⟨fun _ instructions => (Extends.refl instructions).push _,
    fun next instructions program has =>
      passes program instructions.size next (has.last (.refl instructions))⟩

/-- What is built behind is built first. -/
theorem Builds.followed {second : Nat → Array Instruction → Stretch}
    {before behind property : Nat → Nat → Prop} (builds : Builds text body before)
    (others : Builds text second behind)
    (together : ∀ {one two three}, before one two → behind two three → property one three) :
    Builds text (fun next instructions =>
      body (second next instructions).1 (second next instructions).2) property := by
  refine ⟨fun next instructions =>
    (others.extension next instructions).trans (builds.extension _ _),
    fun next instructions program has => ?_⟩
  have first := builds.passes _ _ program (has.behind (others.extension next instructions))
  have rest := others.passes next instructions program (has.before (builds.extension _ _))
  exact first.trans rest together

theorem builds_buildSequence {parts : List Expression}
    (builds : ∀ part ∈ parts, Builds text (build part) (part.Matches text)) :
    Builds text (buildSequence parts) ((Expression.sequence parts).Matches text) := by
  induction parts with
  | nil => exact builds_next .nil
  | cons part parts induction =>
      rw [List.forall_mem_cons] at builds
      exact builds.1.followed (induction builds.2) .cons

theorem builds_buildChoice {alternatives : List Expression} (filled : alternatives ≠ [])
    (builds : ∀ alternative ∈ alternatives,
      Builds text (build alternative) (alternative.Matches text)) :
    Builds text (buildChoice alternatives) ((Expression.choice alternatives).Matches text) := by
  induction alternatives with
  | nil => exact absurd rfl filled
  | cons alternative others induction =>
      rw [List.forall_mem_cons] at builds
      cases others with
      | nil =>
          exact ⟨builds.1.extension, fun next instructions program has =>
            (builds.1.passes next instructions program has).imp (.choice List.mem_cons_self)⟩
      | cons second others =>
          have rest := induction (by simp) builds.2
          have extension (next : Nat) (instructions : Array Instruction) :=
            (rest.extension next instructions).trans (builds.1.extension next _)
          refine ⟨fun next instructions => (extension next instructions).push _,
            fun next instructions program has => ?_⟩
          have has' := has.before ((Extends.refl _).push _)
          have first := builds.1.passes next _ program
            (has'.behind (rest.extension next instructions))
          have later := rest.passes next instructions program
            (has'.before (builds.1.extension next _))
          have forked : program.instructions[_]? = some (repeatFork true _ _) :=
            has.last (extension next instructions)
          exact passes_fork forked (first.imp (.choice List.mem_cons_self))
            (later.imp fun found => by
              cases found with
              | choice member found => exact .choice (List.mem_cons_of_mem _ member) found)

theorem builds_build {expression : Expression} (wellFormed : expression.WellFormed) :
    Builds text (build expression) (expression.Matches text) := by
  induction wellFormed with
  | empty => exact builds_next .empty
  | set characters => exact builds_instruction fun _ _ _ => passes_consume
  | anchor condition => exact builds_instruction fun _ _ _ => passes_check
  | @group index body counted _ induction =>
      cases index with
      | none =>
          exact ⟨induction.extension, fun next instructions program has =>
            (induction.passes next instructions program has).imp .group⟩
      | some index =>
          have indexed : index ≠ 0 := fun zero => counted (congrArg some zero)
          have closes : Builds text (fun next => add (.save (2 * index + 1) next)) Eq :=
            builds_instruction fun _ _ _ found => passes_save found (by omega)
          have opens : Builds text (fun next => add (.save (2 * index) next)) Eq :=
            builds_instruction fun _ _ _ found => passes_save found (by omega)
          have inner : Builds text _ ((Expression.group (some index) body).Matches text) :=
            induction.followed closes fun found same => same ▸ .group found
          exact opens.followed inner fun same found => same ▸ found
  | sequence _ induction => exact builds_buildSequence induction
  | choice filled _ induction => exact builds_buildChoice filled induction
  | repeated greedy limited _ induction => exact builds_repetition induction _ limited

/-! ## Searches -/

/-- At the accepting instruction, a path is at its end. -/
theorem Path.eq_of_accept {steps : Nat} {thread last : Thread}
    (path : Path program text steps thread last)
    (accepting : program.instructions[thread.instruction]? = some .accept) : last = thread := by
  cases path with
  | here => rfl
  | step goesOn _ =>
      rw [advance, accepting] at goesOn
      cases goesOn

/-- What is found is a stretch that the expression matches. -/
theorem matches_of_search? {expression : Expression} {found : Match}
    (wellFormed : expression.WellFormed) (made : ofExpression? expression = some program)
    (finds : program.search? text = some found) :
    expression.Matches text found.start found.stop := by
  obtain ⟨position, steps, last, inside, path, accepting, rfl⟩ := exists_path_of_search? finds
  have builds : Builds text (build expression.normalize) (expression.normalize.Matches text) :=
    builds_build wellFormed.normalize
  unfold ofExpression? at made
  dsimp only at made
  split at made
  case isFalse => cases made
  case isTrue =>
    cases made
    have accepts := (builds.extension 0 #[.accept]).kept 0 (by decide)
    obtain ⟨fewer, passed, -, rest, arrives, crosses⟩ :=
      builds.passes 0 #[.accept] _ (fun _ _ _ => rfl) steps _ last rfl inside path accepting
    obtain rfl := rest.eq_of_accept (by rw [arrives]; exact accepts)
    rw [crosses.recorded]
    exact Expression.matches_of_normalize wellFormed crosses.between

end Destructure.Regex.Program
