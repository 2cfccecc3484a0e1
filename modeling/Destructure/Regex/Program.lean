import Destructure.Regex.Footprint
import Destructure.Regex.Reader

/-!
Regular expressions as programs: instructions addressed by number, each naming its successors. A
program is put together from its end, so every instruction knows the one to go on with. What
repeats itself refers back to a fork that is filled in once its target is known. A body that may
match the empty text is entered before the fork that repeats it, which keeps the order of
preference among its matches.
-/

namespace Destructure.Regex

inductive Instruction where
  /-- Take a character of the set. -/
  | consume (set : CharacterSet) (next : Nat)
  | check (anchor : Anchor) (next : Nat)
  /-- Record the position in a slot. -/
  | save (slot : Nat) (next : Nat)
  /-- Go on at the first target and, failing that, at the second. -/
  | fork (first second : Nat)
  | accept

structure Program where
  instructions : Array Instruction
  start : Nat
  /-- The greatest index of a group. -/
  groups : Nat

namespace Program

abbrev Stretch := Nat × Array Instruction

def add (instruction : Instruction) (instructions : Array Instruction) : Stretch :=
  (instructions.size, instructions.push instruction)

def repeatFork (greedy : Bool) (body next : Nat) : Instruction :=
  if greedy then .fork body next else .fork next body

def copies (body : Nat → Array Instruction → Stretch) : Nat → Nat → Array Instruction → Stretch
  | 0, next, instructions => (next, instructions)
  | count + 1, next, instructions =>
    let (next, instructions) := body next instructions
    copies body count next instructions

def optionalCopies (body : Nat → Array Instruction → Stretch) (greedy : Bool) (leave : Nat) :
    Nat → Nat → Array Instruction → Stretch
  | 0, next, instructions => (next, instructions)
  | count + 1, next, instructions =>
    let (start, instructions) := body next instructions
    let (next, instructions) := add (repeatFork greedy start leave) instructions
    optionalCopies body greedy leave count next instructions

def onceOrMore (body : Nat → Array Instruction → Stretch) (greedy : Bool) (next : Nat)
    (instructions : Array Instruction) : Stretch :=
  let (fork, instructions) := add (.fork next next) instructions
  let (start, instructions) := body fork instructions
  (start, instructions.setIfInBounds fork (repeatFork greedy start next))

def anyNumber (body : Nat → Array Instruction → Stretch) (greedy : Bool) (next : Nat)
    (instructions : Array Instruction) : Stretch :=
  let (fork, instructions) := add (.fork next next) instructions
  let (start, instructions) := body fork instructions
  (fork, instructions.setIfInBounds fork (repeatFork greedy start next))

def repetition (body : Nat → Array Instruction → Stretch) (consumes : Bool) (minimum : Nat)
    (maximum : Option Nat) (greedy : Bool) (next : Nat) (instructions : Array Instruction) :
    Stretch :=
  match maximum with
  | some maximum =>
    let (next, instructions) :=
      optionalCopies body greedy next (maximum - minimum) next instructions
    copies body minimum next instructions
  | none =>
    match minimum with
    | 0 =>
      if consumes then anyNumber body greedy next instructions
      else
        let (start, instructions) := onceOrMore body greedy next instructions
        add (repeatFork greedy start next) instructions
    | fewer + 1 =>
      let (start, instructions) := onceOrMore body greedy next instructions
      copies body fewer start instructions

mutual
def build : Expression → Nat → Array Instruction → Stretch
  | .empty, next, instructions => (next, instructions)
  | .set set, next, instructions => add (.consume set next) instructions
  | .anchor anchor, next, instructions => add (.check anchor next) instructions
  | .group none body, next, instructions => build body next instructions
  | .group (some index) body, next, instructions =>
    let (close, instructions) := add (.save (2 * index + 1) next) instructions
    let (start, instructions) := build body close instructions
    add (.save (2 * index) start) instructions
  | .sequence parts, next, instructions => buildSequence parts next instructions
  | .choice alternatives, next, instructions => buildChoice alternatives next instructions
  | .repeated body minimum maximum greedy, next, instructions =>
    repetition (build body) body.alwaysConsumes minimum maximum greedy next instructions
termination_by structural expression => expression

def buildSequence : List Expression → Nat → Array Instruction → Stretch
  | [], next, instructions => (next, instructions)
  | part :: parts, next, instructions =>
    let (next, instructions) := buildSequence parts next instructions
    build part next instructions
termination_by structural parts => parts

def buildChoice : List Expression → Nat → Array Instruction → Stretch
  | [], next, instructions => (next, instructions)
  | [alternative], next, instructions => build alternative next instructions
  | alternative :: alternatives, next, instructions =>
    let (others, instructions) := buildChoice alternatives next instructions
    let (start, instructions) := build alternative next instructions
    add (.fork start others) instructions
termination_by structural alternatives => alternatives
end

def ofExpression? (expression : Expression) : Option Program :=
  let expression := expression.normalize
  if expression.isSmall then
    let (start, instructions) := build expression 0 #[.accept]
    some ⟨instructions, start, expression.greatestGroup⟩
  else
    none

def ofSource? (source : List Char) : Option Program :=
  (Expression.read? source).bind ofExpression?

end Program

end Destructure.Regex
