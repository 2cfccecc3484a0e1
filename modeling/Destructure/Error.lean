import Destructure.Pattern.Malformed
import Destructure.Reading.Failure

/-!
Everything that can go wrong around matching. That a value does not match is not among it: errors
are mistakes in patterns, and lists of clauses of which none matches.
-/

namespace Destructure

inductive Error (α : Type) where
  | unreadable (failure : ReadFailure)
  | malformed (malformed : Malformed α)
  /-- No decomposer is registered under the name of a shape. -/
  | unimplementedShape (name : String)
  /-- All clauses were tried and none matched the value. -/
  | noMatchingPattern (value : Value α)

namespace Error

variable {α : Type}

def message [Foreign α] : Error α → String
  | unreadable failure => failure.message
  | malformed mistake => mistake.message
  | unimplementedShape name => "No decomposer is registered for the shape " ++ name
  | noMatchingPattern value => "No pattern matched " ++ value.text

end Error

end Destructure
