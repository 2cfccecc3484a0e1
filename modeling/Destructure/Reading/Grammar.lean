import Destructure.Token.Lexer

/-!
Readers of tokens. A reader takes tokens from the start of a list and hands back the rest; what it
cannot read it refuses at the token where it stopped. Nesting is bounded by an allowance that every
opening bracket uses up a part of, so the number of tokens always suffices.
-/

namespace Destructure.Reading

abbrev Reader (Result : Type) := List Token → Except ReadFailure (Result × List Token)

variable {Result : Type}

def refuse (endPosition : Nat) (expectation : Expectation) : List Token → Except ReadFailure Result
  | token :: _ =>
    .error (.refused ⟨token.position, .expected expectation (some token.lexeme)⟩)
  | [] => .error (.refused ⟨endPosition, .expected expectation none⟩)

def behind (endPosition : Nat) (lexeme : Lexeme) (tokens : List Token) :
    Except ReadFailure (List Token) :=
  match tokens with
  | token :: rest =>
    if token.lexeme = lexeme then .ok rest
    else refuse endPosition (.lexeme lexeme) (token :: rest)
  | [] => refuse endPosition (.lexeme lexeme) []

def listUpTo (endPosition : Nat) (bracket : Bracket) (item : Reader Result) :
    (allowance : Nat) → Reader (List Result)
  | 0, _ => .error .exhausted
  | allowance + 1, tokens =>
    if (tokens.head?.map Token.lexeme) = some (.closing bracket) then .ok ([], tokens.tail)
    else
      match item tokens with
      | .error failure => .error failure
      | .ok (first, rest) =>
        if (rest.head?.map Token.lexeme) = some .comma then
          match listUpTo endPosition bracket item allowance rest.tail with
          | .error failure => .error failure
          | .ok (others, rest) => .ok (first :: others, rest)
        else
          match behind endPosition (.closing bracket) rest with
          | .error failure => .error failure
          | .ok rest => .ok ([first], rest)

def operands (separator : Lexeme) (operand : Reader Result) :
    (allowance : Nat) → Reader (List Result)
  | 0, _ => .error .exhausted
  | allowance + 1, tokens =>
    match operand tokens with
    | .error failure => .error failure
    | .ok (first, rest) =>
      if (rest.head?.map Token.lexeme) = some separator then
        match operands separator operand allowance rest.tail with
        | .error failure => .error failure
        | .ok (others, rest) => .ok (first :: others, rest)
      else
        .ok ([first], rest)

def readWhole (expression : (endPosition allowance : Nat) → Reader Result) (endPosition : Nat)
    (tokens : List Token) : Except ReadFailure Result :=
  match expression endPosition (tokens.length + 1) tokens with
  | .error failure => .error failure
  | .ok (result, []) => .ok result
  | .ok (_, rest) => refuse endPosition .endOfInput rest

def readAll (expression : (endPosition allowance : Nat) → Reader Result) (source : String) :
    Except ReadFailure Result :=
  let text := source.toList
  match Token.scan text with
  | .error error => .error (.refused error)
  | .ok tokens => readWhole expression (Text.byteLength text) tokens

end Destructure.Reading
