import Destructure.Pattern.Tree

/-!
What can be wrong with a pattern, and where. Each cause has a general description and a message
that says what it is about.
-/

namespace Destructure

namespace Malformed

inductive Cause (α : Type) where
  | duplicateVariable (name : String)
  | danglingQuantifier
  | stackedQuantifier
  | misplacedQuantifier
  | emptyComposite (operator : String)
  | bindingInAlternative (name : String) (operator : String)
  | notArity (count : Nat)
  | emptySequence
  | misplacedSequence
  | misplacedCondition
  | keyedArity
  | duplicateKey (key : Value α)
  | badFieldKey (key : Value α)

namespace Cause

variable {α : Type}

def description : Cause α → String
  | duplicateVariable _ => "A variable name occurs more than once"
  | danglingQuantifier => "A quantifier has nothing to repeat"
  | stackedQuantifier => "A quantifier directly follows another quantifier"
  | misplacedQuantifier =>
    "Quantifiers may only appear among the items of a deconstructor or a sequence"
  | emptyComposite _ => "A composite pattern has no operands"
  | bindingInAlternative _ _ => "Variables cannot be bound inside Or or Not"
  | notArity _ => "Not takes exactly one operand"
  | emptySequence => "A sequence has no items"
  | misplacedSequence =>
    "Sequences may only appear among the items of a deconstructor or a sequence"
  | misplacedCondition => "Conditions may only appear at the end of a pattern"
  | keyedArity => "A keyed deconstructor needs at least one entry"
  | duplicateKey _ => "A key occurs more than once in a keyed deconstructor"
  | badFieldKey _ => "Record fields must be named by a string or a symbol"

def message [Foreign α] : Cause α → String
  | duplicateVariable name => "The variable " ++ name ++ " is bound more than once"
  | emptyComposite operator => operator ++ " needs at least one operand"
  | bindingInAlternative name operator =>
    "The variable " ++ name ++ " is bound inside " ++ operator
  | notArity count => "Not takes exactly one operand, got " ++ toString count
  | duplicateKey key => "The key " ++ key.text ++ " occurs more than once"
  | badFieldKey key => key.text ++ " cannot name a record field"
  | cause => cause.description

end Cause

end Malformed

structure Malformed (α : Type) where
  path : List Nat
  cause : Malformed.Cause α

namespace Malformed

variable {α : Type}

def message [Foreign α] (malformed : Malformed α) : String :=
  "Malformed pattern at " ++ pathText malformed.path ++ ": " ++ malformed.cause.message

end Malformed

end Destructure
