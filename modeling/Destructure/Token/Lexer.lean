import Destructure.Number.Fraction
import Destructure.Number.Numeral
import Destructure.Reading.Failure

/-!
From text to tokens. Each kind of lexeme has a reader that takes the longest spelling it can from
the start of a text and hands back what follows. A colon directly before a name makes a symbol,
unless the lexeme before it is a name itself: there it separates a field from its content.
-/

namespace Destructure.Lexeme

structure Spelled where
  lexeme : Lexeme
  spelling : List Char
  rest : List Char

/-! ## Bodies between delimiters -/

def unescape : Char → Char
  | 'n' => '\n'
  | 't' => '\t'
  | 'r' => '\r'
  | '0' => '\x00'
  | other => other

structure Body where
  meaning : List Char
  spelling : List Char
  rest : List Char

def Body.prepend (meaning spelling : List Char) (body : Body) : Body :=
  ⟨meaning ++ body.meaning, spelling ++ body.spelling, body.rest⟩

def stringBody? : List Char → Option Body
  | [] => none
  | '"' :: rest => some ⟨[], ['"'], rest⟩
  | '\\' :: escaped :: rest =>
    (stringBody? rest).map (Body.prepend [unescape escaped] ['\\', escaped])
  | '\\' :: [] => none
  | character :: rest => (stringBody? rest).map (Body.prepend [character] [character])

/-- The body of a regular expression after its opening slash. An escaped slash stands for the
slash; every other escape belongs to the expression. -/
def regexBody? : List Char → Option Body
  | [] => none
  | '/' :: rest => some ⟨[], ['/'], rest⟩
  | '\\' :: '/' :: rest => (regexBody? rest).map (Body.prepend ['/'] ['\\', '/'])
  | '\\' :: escaped :: rest =>
    (regexBody? rest).map (Body.prepend ['\\', escaped] ['\\', escaped])
  | '\\' :: [] => none
  | character :: rest => (regexBody? rest).map (Body.prepend [character] [character])

/-! ## Numbers -/

def fractionDigits : List Char → List Char
  | '.' :: rest => rest.takeWhile Text.isDigit
  | _ => []

def exponentParts? : List Char → Option (Char × List Char × List Char)
  | mark :: rest =>
    if mark == 'e' || mark == 'E' then
      let sign := match rest with
        | '+' :: _ => ['+']
        | '-' :: _ => ['-']
        | _ => []
      let digits := (rest.drop sign.length).takeWhile Text.isDigit
      if digits.isEmpty then none else some (mark, sign, digits)
    else
      none
  | [] => none

def number? (text : List Char) : Option Spelled :=
  let negative := text.head? == some '-'
  let sign := if negative then ['-'] else []
  let unsigned := text.drop sign.length
  let whole := unsigned.takeWhile Text.isDigit
  let behindWhole := unsigned.drop whole.length
  let fraction := fractionDigits behindWhole
  let point := if fraction.isEmpty then [] else '.' :: fraction
  let behindFraction := behindWhole.drop point.length
  match exponentParts? behindFraction with
  | some (mark, exponentSign, digits) =>
    let size : Int := Text.natOfDigits digits
    let exponent := if exponentSign = ['-'] then -size else size
    let spelling := sign ++ whole ++ point ++ mark :: exponentSign ++ digits
    some ⟨.float (Number.Numeral.toBinary64 ⟨negative, whole, fraction, exponent⟩), spelling,
      behindFraction.drop (1 + exponentSign.length + digits.length)⟩
  | none =>
    let spelling := sign ++ whole ++ point
    if fraction.isEmpty then
      let magnitude : Int := Text.natOfDigits whole
      (Number.word? (if negative then -magnitude else magnitude)).map fun number =>
        ⟨.int number, spelling, behindFraction⟩
    else
      some ⟨.float (Number.Numeral.toBinary64 ⟨negative, whole, fraction, 0⟩), spelling,
        behindFraction⟩

/-! ## Single lexemes -/

def repetitionLimit : Nat := Nat.pow 2 64

def repetition? (text : List Char) : Option Spelled :=
  let digits := text.takeWhile Text.isDigit
  let rest := text.drop digits.length
  let minimum := Text.natOfDigits digits
  if repetitionLimit ≤ minimum then none
  else
    match rest with
    | '?' :: rest => some ⟨.repetition minimum true, '.' :: '.' :: digits ++ ['?'], rest⟩
    | rest => some ⟨.repetition minimum false, '.' :: '.' :: digits, rest⟩

def colonOrSymbol (afterName : Bool) (text : List Char) : Spelled :=
  let name := text.takeWhile Text.continuesName
  match name with
  | first :: _ =>
    if Text.startsName first && !afterName then
      ⟨.symbol (String.ofList name), ':' :: name, text.drop name.length⟩
    else
      ⟨.colon, [':'], text⟩
  | [] => ⟨.colon, [':'], text⟩

def startsNumber : List Char → Bool
  | '-' :: digit :: _ => Text.isDigit digit
  | digit :: _ => Text.isDigit digit
  | [] => false

def numberOrName (text : List Char) : Except Complaint Spelled :=
  if startsNumber text then
    match number? text with
    | some spelled => .ok spelled
    | none => .error .invalidNumber
  else
    match text with
    | first :: _ =>
      if Text.startsName first then
        let name := text.takeWhile Text.continuesName
        .ok ⟨.name (String.ofList name), name, text.drop name.length⟩
      else
        .error (.unexpectedCharacter first)
    | [] => .error (.unexpectedCharacter '\x00')

def read (afterName : Bool) (text : List Char) : Except Complaint Spelled :=
  match text with
  | '.' :: '.' :: rest =>
    match repetition? rest with
    | some spelled => .ok spelled
    | none => .error .repetitionTooLarge
  | '(' :: rest => .ok ⟨.opening .round, ['('], rest⟩
  | '[' :: rest => .ok ⟨.opening .square, ['['], rest⟩
  | '\x7b' :: rest => .ok ⟨.opening .curly, ['\x7b'], rest⟩
  | ')' :: rest => .ok ⟨.closing .round, [')'], rest⟩
  | ']' :: rest => .ok ⟨.closing .square, [']'], rest⟩
  | '\x7d' :: rest => .ok ⟨.closing .curly, ['\x7d'], rest⟩
  | ',' :: rest => .ok ⟨.comma, [','], rest⟩
  | '|' :: rest => .ok ⟨.bar, ['|'], rest⟩
  | '&' :: rest => .ok ⟨.ampersand, ['&'], rest⟩
  | '!' :: rest => .ok ⟨.bang, ['!'], rest⟩
  | '=' :: '>' :: rest => .ok ⟨.arrow, ['=', '>'], rest⟩
  | ':' :: rest => .ok (colonOrSymbol afterName rest)
  | '"' :: rest =>
    match stringBody? rest with
    | some body => .ok ⟨.string (String.ofList body.meaning), '"' :: body.spelling, body.rest⟩
    | none => .error .unterminatedString
  | '/' :: rest =>
    match regexBody? rest with
    | some body => .ok ⟨.regex (String.ofList body.meaning), '/' :: body.spelling, body.rest⟩
    | none => .error .unterminatedRegex
  | _ => numberOrName text

def isName : Lexeme → Bool
  | name _ => true
  | _ => false

end Destructure.Lexeme

namespace Destructure.Token

def scanFrom : (allowance position : Nat) → (afterName : Bool) → List Char →
    Except ReadError (List Token)
  | 0, _, _, _ => .ok []
  | allowance + 1, position, afterName, text =>
    let layout := text.takeWhile Text.isBlank
    let start := position + Text.byteLength layout
    match text.dropWhile Text.isBlank with
    | [] => .ok []
    | first :: behind =>
      match Lexeme.read afterName (first :: behind) with
      | .error complaint => .error ⟨start, complaint⟩
      | .ok spelled =>
        match scanFrom allowance (start + Text.byteLength spelled.spelling)
            spelled.lexeme.isName spelled.rest with
        | .error error => .error error
        | .ok tokens => .ok (⟨spelled.lexeme, start⟩ :: tokens)

/-- The tokens of a text. Each takes a character at least, so the length of the text is a
sufficient allowance. -/
def scan (text : List Char) : Except ReadError (List Token) :=
  scanFrom (text.length + 1) 0 false text

end Destructure.Token
