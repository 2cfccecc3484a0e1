import Destructure.Matching.Assertion

/-!
Runs for a command line: match a value against a pattern, both given as text, and print the
bindings one to a line. The exit code says whether there was a match, none, or an error. The
arguments have been told apart before.
-/

namespace Destructure.CommandLine

structure Arguments where
  pattern : String
  value : String
  lazy : Bool
  rejectDuplicates : Bool
  /-- Tags of records that can be taken apart by their tag as name. -/
  records : List String
  deriving DecidableEq

structure Outcome where
  code : UInt8
  output : String
  errors : String
  deriving DecidableEq

def Arguments.options (arguments : Arguments) : Options where
  repeatedNames := if arguments.rejectDuplicates then .rejected else .equal
  defaultGreed := if arguments.lazy then .lazy else .greedy

def Arguments.registry (arguments : Arguments) : Registry Empty :=
  arguments.records.foldl Registry.registerRecord Registry.standard

def bindings? [Regex.Engine] (arguments : Arguments) :
    Except (Error Empty) (Option (Bindings Empty)) :=
  match Matcher.ofText arguments.pattern arguments.registry arguments.options with
  | .error error => .error error
  | .ok matcher =>
    match Value.parse arguments.value with
    | .error failure => .error (.unreadable failure)
    | .ok value => .ok (matcher.matches? value)

/-- A run for these arguments: code 0 and the bindings for a match, 1 for none, 2 for an error. -/
def runWith [Regex.Engine] (arguments : Arguments) : Outcome :=
  match bindings? arguments with
  | .error error => ⟨2, "", error.message ++ "\n"⟩
  | .ok none => ⟨1, "", "No match\n"⟩
  | .ok (some bindings) => ⟨0, String.join (bindings.lines.map fun line => line ++ "\n"), ""⟩

end Destructure.CommandLine
