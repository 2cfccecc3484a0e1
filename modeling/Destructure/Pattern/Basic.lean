import Destructure.Matching.Bindings
import Destructure.Pattern.Options
import Destructure.Regex.Basic
import Destructure.Value.Kind

/-!
Patterns as they are written. The items of a deconstruction or of a sequence stand in a row and
take values one after another; a repetition is an item of its own that says how often the item
before it is to be matched.
-/

namespace Destructure

inductive Shape where
  /-- By the decomposer that is registered under the name. -/
  | named (name : String)
  /-- A record with this tag, into the contents of its fields. -/
  | record (tag : String)
  /-- A text, by a regular expression. -/
  | regex (regex : Regex)

instance (shape : Shape) (name : String) : Decidable (shape = .named name) :=
  match shape with
  | .named other => decidable_of_iff (other = name) ⟨congrArg _, Shape.named.inj⟩
  | .record _ => isFalse Shape.noConfusion
  | .regex _ => isFalse Shape.noConfusion

inductive KeyedShape where
  | map
  | record (tag : String)
  deriving DecidableEq

inductive Pattern (α : Type) where
  /-- A value equal to the literal. -/
  | literal (value : Value α)
  /-- A value that the comparison accepts together with the literal, which comes first. -/
  | compared (value : Value α) (accepts : Value α → Value α → Bool)
  | kind (kind : Kind)
  /-- Any value, recorded under the name. -/
  | bind (name : String)
  | wildcard
  | deconstruct (shape : Shape) (items : List (Pattern α))
  | keyed (shape : KeyedShape) (entries : List (Value α × Pattern α))
  /-- The item before it at least `minimum` times, in the order of the options if none is
  stated. -/
  | repetition (minimum : Nat) (greed : Option Greed)
  /-- Items that stand in place of one. -/
  | sequence (items : List (Pattern α))
  | and (operands : List (Pattern α))
  | or (operands : List (Pattern α))
  | not (operands : List (Pattern α))
  /-- Nothing more, and bindings that the condition accepts. -/
  | condition (accepts : Bindings α → Bool)

namespace Pattern

variable {α : Type}

instance : Inhabited (Pattern α) := ⟨wildcard⟩

def listShape : String := "List"

def list (items : List (Pattern α)) : Pattern α := deconstruct (.named listShape) items

def bareEntry (name : String) : Value α × Pattern α := (.symbol name, bind name)

mutual
def binds : Pattern α → Bool
  | bind _ => true
  | deconstruct _ items | sequence items => someBind items
  | and operands | or operands | not operands => someBind operands
  | keyed _ entries => someEntryBinds entries
  | literal _ | compared _ _ | kind _ | wildcard | repetition _ _ | condition _ => false
termination_by structural pattern => pattern

def someBind : List (Pattern α) → Bool
  | [] => false
  | pattern :: patterns => binds pattern || someBind patterns
termination_by structural patterns => patterns

def someEntryBinds : List (Value α × Pattern α) → Bool
  | [] => false
  | (_, pattern) :: entries => binds pattern || someEntryBinds entries
termination_by structural entries => entries
end

end Pattern

end Destructure
