import Destructure.Token.Basic

/-!
Why a text cannot be read. A refusal carries the byte offset where reading stopped and its cause;
the wording of all causes is collected here.
-/

namespace Destructure

inductive Expectation where
  | pattern
  | value
  | field
  | fieldName
  | endOfInput
  | lexeme (lexeme : Lexeme)
  | parenthesisAfter (name : String)
  deriving DecidableEq

namespace Expectation

def description : Expectation → String
  | pattern => "expected a pattern"
  | value => "expected a value"
  | field => "expected a field"
  | fieldName => "expected a field name"
  | endOfInput => "expected end of input"
  | lexeme missing => "expected `" ++ String.ofList missing.render ++ "`"
  | parenthesisAfter name => "expected `(` after " ++ name

end Expectation

inductive Complaint where
  | repetitionTooLarge
  | unterminatedString
  | unterminatedRegex
  | invalidNumber
  | unexpectedCharacter (character : Char)
  /-- Another lexeme, or none, stands where something is expected. -/
  | expected (expectation : Expectation) (found : Option Lexeme)
  deriving DecidableEq

namespace Complaint

def description : Complaint → String
  | repetitionTooLarge => "quantifier count is too large"
  | unterminatedString => "unterminated string"
  | unterminatedRegex => "unterminated regex"
  | invalidNumber => "invalid number"
  | unexpectedCharacter character =>
    "unexpected character " ++ String.ofList (Text.quoteCharacter character)
  | expected expectation (some lexeme) =>
    expectation.description ++ ", found `" ++ String.ofList lexeme.render ++ "`"
  | expected expectation none => expectation.description ++ ", found end of input"

end Complaint

structure ReadError where
  position : Nat
  complaint : Complaint
  deriving DecidableEq

namespace ReadError

def message (error : ReadError) : String :=
  "parse error at " ++ toString error.position ++ ": " ++ error.complaint.description

end ReadError

/-- The outcomes of reading other than success. A regular expression that cannot be compiled is
reported in the words of the engine. `exhausted` stands for a reader that ran out of its allowance,
which is large enough for every text. -/
inductive ReadFailure where
  | refused (error : ReadError)
  | badRegex (message : String)
  | exhausted
  deriving DecidableEq

namespace ReadFailure

def message : ReadFailure → String
  | refused error => error.message
  | badRegex message => message
  | exhausted => "the text is too long"

end ReadFailure

end Destructure
