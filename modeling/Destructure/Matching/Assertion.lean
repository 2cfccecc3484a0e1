import Destructure.Matching.Search
import Destructure.Reading.Pattern

/-!
Matching a value against a pattern given as text, for callers to whom a failed match is an error.
-/

namespace Destructure

variable {α : Type}

def Matcher.ofText [Regex.Engine] [BEq α] (source : String) (registry : Registry α)
    (options : Options) : Except (Error α) (Matcher α) :=
  match Pattern.parse source with
  | .error failure => .error (.unreadable failure)
  | .ok pattern => Matcher.compile pattern registry options

def assertPattern [Regex.Engine] [BEq α] (value : Value α) (source : String)
    (registry : Registry α) : Except (Error α) (Bindings α) :=
  match Matcher.ofText source registry {} with
  | .error error => .error error
  | .ok matcher =>
    match matcher.matches? value with
    | some bindings => .ok bindings
    | none => .error (.noMatchingPattern value)

end Destructure
