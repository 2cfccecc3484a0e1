/-!
Regular expressions that have to match a whole text. The expression is put between the two ends of
the text before it is compiled, and the parts that it yields are the texts of its groups or, if it
has none, the text that it matched. How expressions are compiled and matches are found is up to an
engine; all that is asked of one is what it answers.
-/

namespace Destructure

namespace Regex

structure Span where
  start : Nat
  stop : Nat
  deriving DecidableEq

def Span.content (span : Span) (text : String) : String :=
  String.ofList (text.toList.toArray.extract span.start span.stop).toList

structure Captures where
  whole : Span
  groups : List (Option Span)
  deriving DecidableEq

def Captures.size (captures : Captures) : Nat := captures.groups.length + 1

structure Recognizer where
  captureCount : Nat
  captures? : String → Option Captures

/-- Compiles expressions. The error of one that cannot be compiled is its text. -/
class Engine where
  compile : String → Except String Recognizer

def anchored (source : String) : String := "\\A(?:" ++ source ++ ")\\z"

end Regex

structure Regex extends Regex.Recognizer where
  source : String

namespace Regex

def compile [Engine] (source : String) : Except String Regex :=
  (Engine.compile (anchored source)).map fun recognizer => ⟨recognizer, source⟩

def partCount (regex : Regex) : Nat := max (regex.captureCount - 1) 1

/-- The parts of a match: what the groups captured. Without groups the matched text is the only
part. -/
def parts? (regex : Regex) (text : String) : Option (List (Option String)) :=
  (regex.captures? text).map fun captures =>
    if captures.size = 1 then [some (captures.whole.content text)]
    else captures.groups.map (Option.map fun span => span.content text)

/-- The source between slashes, with a backslash before each slash in it. -/
def render (regex : Regex) : List Char :=
  '/' :: regex.source.toList.flatMap (fun character =>
    if character = '/' then ['\\', '/'] else [character]) ++ ['/']

theorem compile_eq_ok_iff [Engine] {source : String} {regex : Regex} :
    compile source = .ok regex ↔
      regex.source = source ∧ Engine.compile (anchored source) = .ok regex.toRecognizer := by
  unfold compile
  cases Engine.compile (anchored source) with
  | error message => simp [Except.map]
  | ok recognizer =>
      constructor
      · rintro ⟨⟩
        exact ⟨rfl, rfl⟩
      · rintro ⟨rfl, made⟩
        rw [Except.ok.inj made]
        rfl

theorem source_of_compile [Engine] {source : String} {regex : Regex}
    (compiled : compile source = .ok regex) : regex.source = source :=
  (compile_eq_ok_iff.mp compiled).1

theorem compile_of_toOption [Engine] {source : String} {regex : Regex}
    (compiled : (compile source).toOption = some regex) : compile source = .ok regex := by
  cases made : compile source with
  | error message =>
      rw [made] at compiled
      cases compiled
  | ok other =>
      rw [made] at compiled
      exact congrArg Except.ok (Option.some.inj compiled)

end Regex

end Destructure
