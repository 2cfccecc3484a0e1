import Destructure.Regex.Expression

/-!
From the source of a regular expression to its tree. Flags hold from where they stand to the end
of the group around them. With the flag `x`, layout and comments between the parts are skipped.
There are neither references back nor conditions on what stands around a match.
-/

namespace Destructure.Regex

structure Flags where
  /-- Flag `i`: case makes no difference. -/
  ignoreCase : Bool := false
  /-- Flag `m`: the anchors `^` and `$` stand at lines. -/
  lines : Bool := false
  /-- Flag `s`: a point matches line feeds, too. -/
  pointMatchesAll : Bool := false
  /-- Flag `R`: a carriage return ends a line, too. -/
  carriageReturns : Bool := false
  /-- Flag `U`: repetitions are lazy unless marked. -/
  swapGreed : Bool := false
  /-- Flag `x`: layout and comments are skipped. -/
  skipLayout : Bool := false

structure Progress where
  flags : Flags
  groups : Nat
  names : List (List Char)

/-! ## Layout, counts and flags -/

def skipComment : (inComment : Bool) → List Char → List Char
  | _, [] => []
  | true, character :: rest => skipComment (character != '\n') rest
  | false, character :: rest =>
    if Text.isBlank character then skipComment false rest
    else if character == '#' then skipComment true rest
    else character :: rest

def skip (flags : Flags) (text : List Char) : List Char :=
  if flags.skipLayout then skipComment false text else text

def countLimit : Nat := Nat.pow 2 32

def countDigits (flags : Flags) : Nat → List Char → List Char × List Char
  | 0, text => ([], text)
  | allowance + 1, text =>
    match text with
    | character :: rest =>
      if Text.isDigit character then
        let (digits, behind) := countDigits flags allowance (skip flags rest)
        (character :: digits, behind)
      else
        ([], text)
    | [] => ([], [])

def count? (flags : Flags) (text : List Char) : Option (Nat × List Char) :=
  let (digits, rest) := countDigits flags text.length (text.dropWhile Text.isBlank)
  let number := Text.natOfDigits digits
  if digits.isEmpty || countLimit ≤ number then none
  else some (number, skip flags (rest.dropWhile Text.isBlank))

def bounds? (flags : Flags) (text : List Char) : Option (Nat × Option Nat × List Char) := do
  let (minimum, rest) ← count? flags (skip flags text)
  match rest with
  | '\x7d' :: rest => some (minimum, some minimum, rest)
  | ',' :: rest =>
    match skip flags rest with
    | '\x7d' :: rest => some (minimum, none, rest)
    | rest =>
      let (maximum, rest) ← count? flags rest
      match rest with
      | '\x7d' :: rest => if minimum ≤ maximum then some (minimum, some maximum, rest) else none
      | _ => none
  | _ => none

def Flags.set? (flags : Flags) (letter : Char) (on : Bool) : Option Flags :=
  match letter with
  | 'i' => some { flags with ignoreCase := on }
  | 'm' => some { flags with lines := on }
  | 's' => some { flags with pointMatchesAll := on }
  | 'R' => some { flags with carriageReturns := on }
  | 'U' => some { flags with swapGreed := on }
  | 'x' => some { flags with skipLayout := on }
  | 'u' => if on then some flags else none
  | _ => none

def flags? : (flags : Flags) → (seen : List Char) → List Char →
    Option (Flags × List Char × Char × List Char)
  | _, _, [] => none
  | flags, seen, letter :: rest =>
    if letter == ':' || letter == ')' then
      if seen.head? == some '-' then none else some (flags, seen, letter, rest)
    else if seen.contains letter then none
    else if letter == '-' then flags? flags ('-' :: seen) rest
    else
      match flags.set? letter (!seen.contains '-') with
      | some flags => flags? flags (letter :: seen) rest
      | none => none

def continuesGroupName (character : Char) : Bool :=
  character == '_' || character == '.' || character == '[' || character == ']' ||
    Text.isAlphanumeric character

def groupName? (text : List Char) : Option (List Char × List Char) :=
  let name := text.takeWhile (· != '>')
  match name, text.drop name.length with
  | first :: others, '>' :: rest =>
    if Text.startsName first && others.all continuesGroupName then some (name, rest) else none
  | _, _ => none

/-! ## Escapes -/

inductive Escape where
  | literal (character : Char)
  | set (set : CharacterSet)
  | anchor (anchor : Anchor)

def hexDigit? (character : Char) : Option Nat :=
  if '0' ≤ character && character ≤ '9' then some (character.toNat - '0'.toNat)
  else if 'a' ≤ character && character ≤ 'f' then some (character.toNat - 'a'.toNat + 10)
  else if 'A' ≤ character && character ≤ 'F' then some (character.toNat - 'A'.toNat + 10)
  else none

def hexCharacter? (digits : List Nat) : Option Char :=
  let code := digits.foldl (16 * · + ·) 0
  if digits.isEmpty then none
  else if code < 0xD800 || (0xDFFF < code && code < 0x110000) then some (Char.ofNat code)
  else none

def hexDigits? (flags : Flags) : Nat → List Char → Option (List Nat × List Char)
  | 0, text => some ([], text)
  | _ + 1, [] => none
  | count + 1, character :: rest => do
    let digit ← hexDigit? character
    let (digits, behind) ← hexDigits? flags count (skip flags rest)
    some (digit :: digits, behind)

def bracketedHexDigits? (flags : Flags) : (allowance : Nat) → List Char →
    Option (List Nat × List Char)
  | 0, _ => none
  | allowance + 1, text =>
    match skip flags text with
    | [] => none
    | '\x7d' :: behind => some ([], behind)
    | character :: rest => do
      let digit ← hexDigit? character
      let (digits, behind) ← bracketedHexDigits? flags allowance rest
      some (digit :: digits, behind)

def hexEscape? (flags : Flags) (digitCount : Nat) (text : List Char) :
    Option (Char × List Char) := do
  let (digits, behind) ←
    match skip flags text with
    | '\x7b' :: rest => bracketedHexDigits? flags (rest.length + 1) rest
    | rest => hexDigits? flags digitCount rest
  let character ← hexCharacter? digits
  some (character, behind)

def namesBoundary (character : Char) : Bool := character.isAlpha || character == '-'

def boundaryName (flags : Flags) : (allowance : Nat) → List Char → List Char × List Char
  | 0, text => ([], text)
  | allowance + 1, text =>
    match text with
    | character :: rest =>
      if namesBoundary character then
        let (name, behind) := boundaryName flags allowance (skip flags rest)
        (character :: name, behind)
      else
        ([], text)
    | [] => ([], [])

def namedBoundary? (name : String) : Option Anchor :=
  match name with
  | "start" => some (.wordStart .word)
  | "end" => some (.wordEnd .word)
  | "start-half" => some (.outsideWordBefore .word)
  | "end-half" => some (.outsideWordAfter .word)
  | _ => none

/-- A word boundary, of which a name in curly brackets may choose one side. Brackets that hold
anything but a name are left to be read as a count. -/
def wordBoundary? (flags : Flags) (text : List Char) : Option (Anchor × List Char) :=
  match text with
  | '\x7b' :: inside =>
    match skip flags inside with
    | [] => none
    | first :: rest =>
      if namesBoundary first then
        match boundaryName flags (rest.length + 1) (first :: rest) with
        | (name, '\x7d' :: behind) =>
          (namedBoundary? (String.ofList name)).map fun anchor => (anchor, behind)
        | _ => none
      else
        some (.wordBoundary .word, text)
  | _ => some (.wordBoundary .word, text)

def isEscapable (character : Char) : Bool :=
  character.toNat < 0x80 && !character.isAlphanum && character != '<' && character != '>'

def escape? (flags : Flags) : List Char → Option (Escape × List Char)
  | [] => none
  | character :: rest =>
    if isEscapable character then some (.literal character, rest)
    else
      match character with
      | 'a' => some (.literal '\x07', rest)
      | 'f' => some (.literal '\x0c', rest)
      | 't' => some (.literal '\t', rest)
      | 'n' => some (.literal '\n', rest)
      | 'r' => some (.literal '\r', rest)
      | 'v' => some (.literal '\x0b', rest)
      | 'd' => some (.set .digit, rest)
      | 'D' => some (.set (.complement .digit), rest)
      | 's' => some (.set .blank, rest)
      | 'S' => some (.set (.complement .blank), rest)
      | 'w' => some (.set .word, rest)
      | 'W' => some (.set (.complement .word), rest)
      | 'A' => some (.anchor .textStart, rest)
      | 'z' => some (.anchor .textEnd, rest)
      | 'b' => (wordBoundary? flags rest).map fun (found, behind) => (.anchor found, behind)
      | 'B' => some (.anchor (.insideWord .word), rest)
      | '<' => some (.anchor (.wordStart .word), rest)
      | '>' => some (.anchor (.wordEnd .word), rest)
      | 'x' => (hexEscape? flags 2 rest).map fun (found, behind) => (.literal found, behind)
      | 'u' => (hexEscape? flags 4 rest).map fun (found, behind) => (.literal found, behind)
      | 'U' => (hexEscape? flags 8 rest).map fun (found, behind) => (.literal found, behind)
      | _ => none

/-! ## Sets in brackets -/

def namedIntervals? (name : String) : Option (List (Char × Char)) :=
  match name with
  | "alnum" => some [('0', '9'), ('A', 'Z'), ('a', 'z')]
  | "alpha" => some [('A', 'Z'), ('a', 'z')]
  | "ascii" => some [('\x00', '\x7f')]
  | "blank" => some [('\t', '\t'), (' ', ' ')]
  | "cntrl" => some [('\x00', '\x1f'), ('\x7f', '\x7f')]
  | "digit" => some [('0', '9')]
  | "graph" => some [('!', '~')]
  | "lower" => some [('a', 'z')]
  | "print" => some [(' ', '~')]
  | "punct" => some [('!', '/'), (':', '@'), ('[', '\x60'), ('\x7b', '~')]
  | "space" => some [('\t', '\r'), (' ', ' ')]
  | "upper" => some [('A', 'Z')]
  | "word" => some [('0', '9'), ('A', 'Z'), ('_', '_'), ('a', 'z')]
  | "xdigit" => some [('0', '9'), ('A', 'F'), ('a', 'f')]
  | _ => none

def namedSet? (flags : Flags) (text : List Char) : Option (CharacterSet × List Char) :=
  match text with
  | ':' :: rest =>
    let negated := rest.head? == some '^'
    let rest := if negated then rest.drop 1 else rest
    let name := rest.takeWhile (· != ':')
    match namedIntervals? (String.ofList name), rest.drop name.length with
    | some intervals, ':' :: ']' :: behind =>
      let set := .intervals flags.ignoreCase intervals
      some (if negated then .complement set else set, behind)
    | _, _ => none
  | _ => none

def setItem? (flags : Flags) : List Char → Option (Escape × List Char)
  | '\\' :: rest => escape? flags rest
  | character :: rest => some (.literal character, rest)
  | [] => none

def Escape.toSet? (flags : Flags) : Escape → Option CharacterSet
  | .literal character => some (.single flags.ignoreCase character)
  | .set characters => some characters
  | .anchor _ => none

/-- The character that decides what the minus sign before it means. Layout is skipped to find it
and so is the first number sign, but not the comment that this sign begins. -/
def deciding? (flags : Flags) (text : List Char) : Option Char :=
  if flags.skipLayout then
    match text.dropWhile Text.isBlank with
    | '#' :: comment => (comment.dropWhile Text.isBlank).head?
    | rest => rest.head?
  else
    text.head?

def setRange? (flags : Flags) (text : List Char) : Option (CharacterSet × List Char) := do
  let (first, rest) ← setItem? flags text
  match skip flags rest with
  | [] => none
  | '-' :: behind =>
    if deciding? flags behind == some ']' || deciding? flags behind == some '-' then
      (first.toSet? flags).map fun set => (set, '-' :: behind)
    else
      let (last, rest) ← setItem? flags (skip flags behind)
      match first, last with
      | .literal lowest, .literal highest =>
        if lowest ≤ highest then some (.intervals flags.ignoreCase [(lowest, highest)], rest)
        else none
      | _, _ => none
  | rest => (first.toSet? flags).map fun set => (set, rest)

abbrev PendingOperator := Option (SetOperator × CharacterSet)

def PendingOperator.apply (pending : PendingOperator) (items : List CharacterSet) :
    CharacterSet :=
  match pending with
  | none => .union items
  | some (operator, first) => .combined operator first (.union items)

/-- What stands at the start of a set: a mark for the complement, and minus signs and then a
closing bracket that stand for themselves. -/
def setOpening (flags : Flags) (text : List Char) : Bool × List CharacterSet × List Char :=
  let text := skip flags text
  let negated := text.head? == some '^'
  let text := if negated then skip flags (text.drop 1) else text
  let (minuses, text) := leadingMinuses text.length text
  match minuses, text with
  | [], ']' :: rest => (negated, [.single flags.ignoreCase ']'], rest)
  | _, _ => (negated, minuses, text)
where
  leadingMinuses : Nat → List Char → List CharacterSet × List Char
    | allowance + 1, '-' :: rest =>
      let (minuses, text) := leadingMinuses allowance (skip flags rest)
      (.single flags.ignoreCase '-' :: minuses, text)
    | _, text => ([], text)

def setBody? (flags : Flags) : (allowance : Nat) → (negated : Bool) → PendingOperator →
    List CharacterSet → List Char → Option (CharacterSet × List Char)
  | 0, _, _, _, _ => none
  | allowance + 1, negated, pending, items, text =>
    match skip flags text with
    | [] => none
    | ']' :: rest => some (.bracket negated (pending.apply items), rest)
    | '[' :: rest =>
      match namedSet? flags rest with
      | some (set, rest) => setBody? flags allowance negated pending (set :: items) rest
      | none =>
        let (innerNegated, innerItems, rest) := setOpening flags rest
        match setBody? flags allowance innerNegated none innerItems rest with
        | some (set, rest) => setBody? flags allowance negated pending (set :: items) rest
        | none => none
    | '&' :: '&' :: rest =>
      setBody? flags allowance negated (some (.intersection, pending.apply items)) [] rest
    | '-' :: '-' :: rest =>
      setBody? flags allowance negated (some (.difference, pending.apply items)) [] rest
    | '~' :: '~' :: rest =>
      setBody? flags allowance negated (some (.symmetricDifference, pending.apply items)) [] rest
    | text =>
      match setRange? flags text with
      | some (set, rest) => setBody? flags allowance negated pending (set :: items) rest
      | none => none

def bracketSet? (flags : Flags) (text : List Char) : Option (CharacterSet × List Char) :=
  let (negated, items, rest) := setOpening flags text
  setBody? flags (rest.length + 1) negated none items rest

/-! ## Expressions -/

def Flags.pointSet (flags : Flags) : CharacterSet :=
  if flags.pointMatchesAll then .any
  else if flags.carriageReturns then .complement (.intervals false [('\n', '\n'), ('\r', '\r')])
  else .complement (.single false '\n')

/-- A part of a row. Flags take a place of their own, and cannot be repeated. -/
inductive Part where
  | flags
  | expression (expression : Expression)

def Part.toExpression : Part → Expression
  | .flags => .empty
  | .expression body => body

def row (parts : List Part) : Expression :=
  Expression.inSequence (parts.reverse.map Part.toExpression)

def repeatLatest? (minimum : Nat) (maximum : Option Nat) (greedy : Bool) :
    List Part → Option (List Part)
  | .expression body :: parts => some (.expression (.repeated body minimum maximum greedy) :: parts)
  | _ => none

def greediness (flags : Flags) : List Char → Bool × List Char
  | '?' :: rest => (flags.swapGreed, rest)
  | text => (!flags.swapGreed, text)

inductive GroupOpening where
  | flagsOnly (flags : Flags)
  | group (index : Option Nat) (flags : Flags)

def groupOpening? (progress : Progress) (text : List Char) :
    Option (GroupOpening × Progress × List Char) :=
  let flags := progress.flags
  let named (text : List Char) : Option (GroupOpening × Progress × List Char) := do
    let (name, rest) ← groupName? text
    if progress.names.contains name then none
    else
      let index := progress.groups + 1
      some (.group (some index) flags, ⟨flags, index, name :: progress.names⟩, rest)
  match skip flags text with
  | '?' :: '=' :: _ | '?' :: '!' :: _ | '?' :: '<' :: '=' :: _ | '?' :: '<' :: '!' :: _ => none
  | '?' :: 'P' :: '<' :: rest => named rest
  | '?' :: '<' :: rest => named rest
  | '?' :: rest => do
    let (inner, seen, last, rest) ← flags? flags [] rest
    if last == ')' then
      if seen.isEmpty then none else some (.flagsOnly inner, progress, rest)
    else
      some (.group none inner, progress, rest)
  | rest =>
    let index := progress.groups + 1
    some (.group (some index) flags, { progress with groups := index }, rest)

/-- The alternatives from here to the end of the group around them, or of the source. What is
left starts with the closing bracket of that group. -/
def alternatives? : (allowance : Nat) → Progress → (finished : List Expression) →
    (parts : List Part) → List Char → Option (Expression × Progress × List Char)
  | 0, _, _, _, _ => none
  | allowance + 1, progress, finished, parts, text =>
    let flags := progress.flags
    let add (expression : Expression) (rest : List Char) :=
      alternatives? allowance progress finished (.expression expression :: parts) rest
    let multiply (minimum : Nat) (maximum : Option Nat) (rest : List Char) := do
      let (greedy, rest) := greediness flags rest
      let parts ← repeatLatest? minimum maximum greedy parts
      alternatives? allowance progress finished parts rest
    let close (rest : List Char) :=
      some (Expression.amongAlternatives (row parts :: finished).reverse, progress, rest)
    match skip flags text with
    | [] => close []
    | ')' :: rest => close (')' :: rest)
    | '|' :: rest => alternatives? allowance progress (row parts :: finished) [] rest
    | '(' :: rest => do
      let (opening, counted, rest) ← groupOpening? progress rest
      match opening with
      | .flagsOnly inner =>
        alternatives? allowance { progress with flags := inner } finished (.flags :: parts) rest
      | .group index inner =>
        let (body, reached, rest) ←
          alternatives? allowance { counted with flags := inner } [] [] rest
        match rest with
        | ')' :: rest =>
          alternatives? allowance { reached with flags := flags } finished
            (.expression (.group index body) :: parts) rest
        | _ => none
    | '[' :: rest => do
      let (set, rest) ← bracketSet? flags rest
      add (.set set) rest
    | '?' :: rest => multiply 0 (some 1) rest
    | '*' :: rest => multiply 0 none rest
    | '+' :: rest => multiply 1 none rest
    | '\x7b' :: rest => do
      let (minimum, maximum, rest) ← bounds? flags rest
      multiply minimum maximum (skip flags rest)
    | '\\' :: rest => do
      let (escape, rest) ← escape? flags rest
      match escape with
      | .literal character => add (.set (.single flags.ignoreCase character)) rest
      | .set set => add (.set set) rest
      | .anchor condition => add (.anchor condition) rest
    | '.' :: rest =>
      add (.set flags.pointSet) rest
    | '^' :: rest =>
      add (.anchor (if flags.lines then .lineStart flags.carriageReturns else .textStart)) rest
    | '$' :: rest =>
      add (.anchor (if flags.lines then .lineEnd flags.carriageReturns else .textEnd)) rest
    | character :: rest => add (.set (.single flags.ignoreCase character)) rest

def depthLimit : Nat := 250

def Expression.read? (source : List Char) : Option Expression :=
  match alternatives? (source.length + 1) ⟨{}, 0, []⟩ [] [] source with
  | some (expression, _, []) => if expression.depth ≤ depthLimit then some expression else none
  | _ => none

end Destructure.Regex
