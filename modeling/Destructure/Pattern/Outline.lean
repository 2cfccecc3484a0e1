import Destructure.Pattern.Basic

/-!
Patterns with their nodes numbered. An outline has the shape of its pattern; each node carries a
number, counted from the root in preorder, and what remains of the pattern when its parts are
taken out. Every repetition has received an order.
-/

namespace Destructure

inductive Test (α : Type) where
  | equal (value : Value α)
  | compared (value : Value α) (accepts : Value α → Value α → Bool)
  | kind (kind : Kind)

namespace Test

variable {α : Type}

def accepts [BEq α] : Test α → Value α → Bool
  | equal literal, value => literal == value
  | compared literal accepts, value => accepts literal value
  | kind expected, value => expected.accepts value

end Test

inductive NodeKind (α : Type) where
  | test (test : Test α)
  | bind (name : String)
  | wildcard
  | deconstruct (shape : Shape)
  | keyed (shape : KeyedShape) (keys : List (Value α))
  | repetition (minimum : Nat) (greed : Greed)
  | sequence
  | and
  | or
  | not
  | condition (accepts : Bindings α → Bool)

namespace NodeKind

variable {α : Type}

def isOrdered : NodeKind α → Bool
  | deconstruct _ | sequence | keyed _ _ => true
  | _ => false

def holdsItems : NodeKind α → Bool
  | deconstruct _ | sequence => true
  | _ => false

def isRepetition : NodeKind α → Bool
  | repetition _ _ => true
  | _ => false

def isSequence : NodeKind α → Bool
  | sequence => true
  | _ => false

def isCondition : NodeKind α → Bool
  | condition _ => true
  | _ => false

def isAlternative : NodeKind α → Bool
  | or | not => true
  | _ => false

def label : NodeKind α → String
  | test _ => "Value"
  | bind _ => "Var"
  | wildcard => "Wildcard"
  | deconstruct _ => "Deconstructor"
  | keyed _ _ => "Keyed"
  | repetition _ _ => "Quantifier"
  | sequence => "Seq"
  | and => "And"
  | or => "Or"
  | not => "Not"
  | condition _ => "Cond"

end NodeKind

inductive Outline (α : Type) where
  | node (id : Nat) (kind : NodeKind α) (children : List (Outline α))

namespace Outline

variable {α : Type}

instance : Inhabited (Outline α) := ⟨node 0 .wildcard []⟩

def id : Outline α → Nat
  | node id _ _ => id

def kind : Outline α → NodeKind α
  | node _ kind _ => kind

def children : Outline α → List (Outline α)
  | node _ _ children => children

/-! ## Numbering -/

mutual
def number (defaultGreed : Greed) : Pattern α → Nat → Outline α × Nat
  | .literal value, first => (node first (.test (.equal value)) [], first + 1)
  | .compared value accepts, first => (node first (.test (.compared value accepts)) [], first + 1)
  | .kind category, first => (node first (.test (.kind category)) [], first + 1)
  | .bind name, first => (node first (.bind name) [], first + 1)
  | .wildcard, first => (node first .wildcard [], first + 1)
  | .deconstruct shape items, first =>
    let (children, next) := numberAll defaultGreed items (first + 1)
    (node first (.deconstruct shape) children, next)
  | .keyed shape entries, first =>
    let (children, next) := numberEntries defaultGreed entries (first + 1)
    (node first (.keyed shape (entries.map Prod.fst)) children, next)
  | .repetition minimum greed, first =>
    (node first (.repetition minimum (greed.getD defaultGreed)) [], first + 1)
  | .sequence items, first =>
    let (children, next) := numberAll defaultGreed items (first + 1)
    (node first .sequence children, next)
  | .and operands, first =>
    let (children, next) := numberAll defaultGreed operands (first + 1)
    (node first .and children, next)
  | .or operands, first =>
    let (children, next) := numberAll defaultGreed operands (first + 1)
    (node first .or children, next)
  | .not operands, first =>
    let (children, next) := numberAll defaultGreed operands (first + 1)
    (node first .not children, next)
  | .condition accepts, first => (node first (.condition accepts) [], first + 1)
termination_by structural pattern => pattern

def numberAll (defaultGreed : Greed) : List (Pattern α) → Nat → List (Outline α) × Nat
  | [], first => ([], first)
  | pattern :: patterns, first =>
    let (outline, next) := number defaultGreed pattern first
    let (outlines, next) := numberAll defaultGreed patterns next
    (outline :: outlines, next)
termination_by structural patterns => patterns

def numberEntries (defaultGreed : Greed) :
    List (Value α × Pattern α) → Nat → List (Outline α) × Nat
  | [], first => ([], first)
  | (_, pattern) :: entries, first =>
    let (outline, next) := number defaultGreed pattern first
    let (outlines, next) := numberEntries defaultGreed entries next
    (outline :: outlines, next)
termination_by structural entries => entries
end

def ofPattern (defaultGreed : Greed) (pattern : Pattern α) : Outline α :=
  (number defaultGreed pattern 0).1

/-! ## Traversals in preorder -/

mutual
def preorder : Outline α → List (Outline α)
  | node id kind children => node id kind children :: preorderAll children
termination_by structural outline => outline

def preorderAll : List (Outline α) → List (Outline α)
  | [] => []
  | outline :: outlines => preorder outline ++ preorderAll outlines
termination_by structural outlines => outlines
end

mutual
def branches : Outline α → Bool
  | node _ kind children => kind.isRepetition || someBranch children
termination_by structural outline => outline

def someBranch : List (Outline α) → Bool
  | [] => false
  | outline :: outlines => branches outline || someBranch outlines
termination_by structural outlines => outlines
end

def leadingRepetition? : List (Outline α) → Option Nat
  | node id (.repetition _ _) _ :: _ => some id
  | _ => none

structure Binder where
  id : Nat
  name : String
  repetitions : List Nat
  deriving DecidableEq

mutual
def binders (repetitions : List Nat) : Outline α → List Binder
  | node id kind children =>
    match kind with
    | .bind name => ⟨id, name, repetitions⟩ :: bindersOfRow kind.isOrdered repetitions children
    | _ => bindersOfRow kind.isOrdered repetitions children
termination_by structural outline => outline

def bindersOfRow (ordered : Bool) (repetitions : List Nat) : List (Outline α) → List Binder
  | [] => []
  | outline :: outlines =>
    let around := if ordered then (leadingRepetition? outlines).toList else []
    binders (repetitions ++ around) outline ++ bindersOfRow ordered repetitions outlines
termination_by structural outlines => outlines
end

end Outline

end Destructure
