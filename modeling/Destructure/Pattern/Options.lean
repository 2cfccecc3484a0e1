/-!
Choices that change what a pattern means.
-/

namespace Destructure

inductive Greed where
  | greedy
  | lazy
  deriving DecidableEq

namespace Greed

def walk {Candidate : Type} (greed : Greed) (candidates : List Candidate) : List Candidate :=
  match greed with
  | greedy => candidates.reverse
  | lazy => candidates

/-- The counts to try from a minimum up to what is available, in order. -/
def counts (greed : Greed) (minimum available : Nat) : List Nat :=
  greed.walk ((List.range (available + 1 - minimum)).map (minimum + ·))

def name : Greed → String
  | greedy => "greedy"
  | lazy => "lazy"

end Greed

inductive RepeatedNames where
  /-- The pattern is malformed. -/
  | rejected
  /-- All occurrences have to be bound to equal values. -/
  | equal
  deriving DecidableEq

structure Options where
  repeatedNames : RepeatedNames := .equal
  /-- The order for repetitions that do not state their own. -/
  defaultGreed : Greed := .greedy
  deriving DecidableEq

end Destructure
