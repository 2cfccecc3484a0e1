import Destructure.Proofs.Token.Numbers

/-!
The spellings of lexemes as a relation that knows nothing of reading. What is read from a text is a
lexeme with one of its spellings at the start of the text; and every spelling is read as its lexeme,
as far as what follows does not lengthen it. The one thing that is not in a spelling is whether a
colon stands behind a name, where no symbol starts.
-/

namespace Destructure.Lexeme

open Text Number

inductive Quotes : List Char → List Char → Prop where
  | nil : Quotes [] []
  | escaped (character : Char) {spelling meaning} : Quotes spelling meaning →
      Quotes ('\\' :: character :: spelling) (unescape character :: meaning)
  | plain {character spelling meaning} : character ≠ '"' → character ≠ '\\' →
      Quotes spelling meaning → Quotes (character :: spelling) (character :: meaning)

inductive Spelling : List Char → Lexeme → Prop where
  | opening (bracket : Bracket) : Spelling [bracket.opening] (.opening bracket)
  | closing (bracket : Bracket) : Spelling [bracket.closing] (.closing bracket)
  | comma : Spelling [','] .comma
  | bar : Spelling ['|'] .bar
  | ampersand : Spelling ['&'] .ampersand
  | bang : Spelling ['!'] .bang
  | arrow : Spelling ['=', '>'] .arrow
  | colon : Spelling [':'] .colon
  | name {text} : IsName text → Spelling text (.name (String.ofList text))
  | symbol {text} : IsName text → Spelling (':' :: text) (.symbol (String.ofList text))
  | string {spelling meaning} : Quotes spelling meaning →
      Spelling ('"' :: (spelling ++ ['"'])) (.string (String.ofList meaning))
  | regex {source} : IsSource source →
      Spelling ('/' :: (source.flatMap guardSlash ++ ['/'])) (.regex (String.ofList source))
  | repetition {digits} (lazy : Bool) : (∀ digit ∈ digits, isDigit digit) →
      natOfDigits digits < repetitionLimit →
      Spelling ('.' :: '.' :: (digits ++ if lazy then ['?'] else []))
        (.repetition (natOfDigits digits) lazy)
  | int {whole number} (negative : Bool) : AllDigits whole →
      word? (if negative then -(natOfDigits whole : Int) else natOfDigits whole) = some number →
      Spelling (signOf negative ++ whole) (.int number)
  | decimal {whole fraction} (negative : Bool) : AllDigits whole → AllDigits fraction →
      Spelling (signOf negative ++ (whole ++ '.' :: fraction))
        (.float (Numeral.toBinary64 ⟨negative, whole, fraction, 0⟩))
  | exponential {whole fraction mark sign exponent} (negative : Bool) : AllDigits whole →
      (∀ digit ∈ fraction, isDigit digit) → IsMark mark → IsExponentSign sign →
      AllDigits exponent →
      Spelling (signOf negative ++ (whole ++ (pointed fraction ++ mark :: (sign ++ exponent))))
        (.float (Numeral.toBinary64 ⟨negative, whole, fraction, exponentOf sign exponent⟩))

def Fits (afterName : Bool) (lexeme : Lexeme) : Prop :=
  ∀ name, lexeme = .symbol name → afterName = false

structure Spelled.Sound (afterName : Bool) (text : List Char) (spelled : Spelled) : Prop where
  split : text = spelled.spelling ++ spelled.rest
  spells : Spelling spelled.spelling spelled.lexeme
  fits : spelled.lexeme.Fits afterName

/-! ## Spellings are read -/

theorem stringBody?_plain {character : Char} (notQuote : character ≠ '"')
    (notBackslash : character ≠ '\\') (rest : List Char) :
    stringBody? (character :: rest) =
      (stringBody? rest).map (Body.prepend [character] [character]) := by
  rw [stringBody?]
  · exact notQuote
  · exact fun _ _ isBackslash => absurd isBackslash notBackslash
  · exact fun isBackslash => absurd isBackslash notBackslash

theorem stringBody?_quotes {spelling meaning : List Char} (quotes : Quotes spelling meaning)
    (rest : List Char) :
    stringBody? (spelling ++ '"' :: rest) = some ⟨meaning, spelling ++ ['"'], rest⟩ := by
  induction quotes with
  | nil => rfl
  | escaped character quotes induction =>
      rw [List.cons_append, List.cons_append, stringBody?, induction]
      rfl
  | plain notQuote notBackslash quotes induction =>
      rw [List.cons_append, stringBody?_plain notQuote notBackslash, induction]
      rfl

theorem colonOrSymbol_of_stops (afterName : Bool) {rest : List Char} (stops : Stops rest) :
    colonOrSymbol afterName rest = ⟨.colon, [':'], rest⟩ := by
  have none : rest.takeWhile continuesName = [] :=
    takeWhile_run (List.forall_mem_nil _) stops.endsName
  rw [colonOrSymbol, none]

theorem read_spelling {spelling : List Char} {lexeme : Lexeme} (spells : Spelling spelling lexeme)
    {afterName : Bool} (fits : lexeme.Fits afterName) {rest : List Char} (stops : Stops rest) :
    read afterName (spelling ++ rest) = .ok ⟨lexeme, spelling, rest⟩ := by
  cases spells with
  | opening bracket => cases bracket <;> rfl
  | closing bracket => cases bracket <;> rfl
  | comma => rfl
  | bar => rfl
  | ampersand => rfl
  | bang => rfl
  | arrow => rfl
  | colon => exact congrArg Except.ok (colonOrSymbol_of_stops afterName stops)
  | name isName => exact read_name isName stops.endsName afterName
  | symbol isName =>
      rw [fits _ rfl]
      exact read_symbol isName stops.endsName
  | string quotes =>
      rw [List.cons_append, List.append_assoc, List.singleton_append, read,
        stringBody?_quotes quotes]
  | regex isSource =>
      rw [List.cons_append, List.append_assoc, List.singleton_append, read,
        regexBody?_source isSource]
  | repetition lazy all small =>
      cases lazy with
      | true =>
          rw [if_pos rfl, List.cons_append, List.cons_append, List.append_assoc]
          exact read_lazyRepetitionDigits afterName all small rest
      | false =>
          rw [if_neg Bool.false_ne_true, List.append_nil]
          exact read_repetitionDigits afterName all small stops
  | int negative digits inRange =>
      have found := number?_whole negative digits stops inRange
      rw [List.append_assoc]
      exact read_number afterName digits found
  | decimal negative digits digits' =>
      have found := number?_point negative digits digits' stops
      rw [List.append_assoc, List.append_assoc, List.cons_append]
      rw [List.append_assoc] at found
      exact read_number afterName digits found
  | exponential negative digits digits' isMark isSign size =>
      have found := number?_exponential negative digits digits' isMark isSign size stops.endsDigits
      simp only [List.append_assoc, List.cons_append]
      exact read_number afterName digits found

/-! ## What is read is spelled -/

theorem quotes_of_stringBody? (text : List Char) :
    ∀ body, stringBody? text = some body → text = body.spelling ++ body.rest ∧
      ∃ spelling, body.spelling = spelling ++ ['"'] ∧ Quotes spelling body.meaning := by
  induction text using stringBody?.induct with
  | case1 =>
      intro body read
      cases read
  | case2 rest =>
      intro body read
      cases read
      exact ⟨rfl, [], rfl, .nil⟩
  | case3 escaped rest induction =>
      intro body read
      rw [stringBody?, Option.map_eq_some_iff] at read
      rcases read with ⟨inner, read, rfl⟩
      rcases induction inner read with ⟨split, spelling, spelled, quotes⟩
      exact ⟨by rw [split]; rfl, '\\' :: escaped :: spelling, by rw [Body.prepend, spelled]; rfl,
        .escaped escaped quotes⟩
  | case4 =>
      intro body read
      cases read
  | case5 character rest notQuote notPair notLast induction =>
      intro body read
      have notBackslash : character ≠ '\\' := by
        intro isBackslash
        cases rest with
        | nil => exact notLast isBackslash rfl
        | cons escaped others => exact notPair escaped others isBackslash rfl
      rw [stringBody?_plain notQuote notBackslash, Option.map_eq_some_iff] at read
      rcases read with ⟨inner, read, rfl⟩
      rcases induction inner read with ⟨split, spelling, spelled, quotes⟩
      exact ⟨by rw [split]; rfl, character :: spelling, by rw [Body.prepend, spelled]; rfl,
        .plain notQuote notBackslash quotes⟩

theorem guarded_of_regexBody? (text : List Char) :
    ∀ body, regexBody? text = some body → text = body.spelling ++ body.rest ∧
      body.spelling = body.meaning.flatMap guardSlash ++ ['/'] := by
  induction text using regexBody?.induct with
  | case1 =>
      intro body read
      cases read
  | case2 rest =>
      intro body read
      cases read
      exact ⟨rfl, rfl⟩
  | case3 rest induction =>
      intro body read
      rw [regexBody?, Option.map_eq_some_iff] at read
      rcases read with ⟨inner, read, rfl⟩
      rcases induction inner read with ⟨split, spelled⟩
      exact ⟨by rw [split]; rfl, by rw [Body.prepend, spelled]; rfl⟩
  | case4 escaped rest notSlash induction =>
      intro body read
      rw [regexBody?_pair notSlash, Option.map_eq_some_iff] at read
      rcases read with ⟨inner, read, rfl⟩
      rcases induction inner read with ⟨split, spelled⟩
      refine ⟨by rw [split]; rfl, ?_⟩
      rw [Body.prepend, spelled, List.flatMap_append, List.flatMap_cons, List.flatMap_singleton,
        guardSlash_of_ne notSlash]
      rfl
  | case5 =>
      intro body read
      cases read
  | case6 character rest notSlash notGuarded notPair notLast induction =>
      intro body read
      rw [regexBody?.eq_6 _ _ notSlash notGuarded notPair notLast, Option.map_eq_some_iff] at read
      rcases read with ⟨inner, read, rfl⟩
      rcases induction inner read with ⟨split, spelled⟩
      refine ⟨by rw [split]; rfl, ?_⟩
      rw [Body.prepend, spelled, List.flatMap_append, List.flatMap_singleton,
        guardSlash_of_ne notSlash]
      rfl

theorem exists_run (property : Char → Bool) (text : List Char) :
    ∃ run rest, text = run ++ rest ∧ (∀ character ∈ run, property character) ∧
      Ends property rest := by
  refine ⟨text.takeWhile property, text.dropWhile property,
    List.takeWhile_append_dropWhile.symm, List.all_eq_true.mp List.all_takeWhile, ?_⟩
  intro next member
  have stops := List.head?_dropWhile_not property text
  rw [Option.mem_def.mp member] at stops
  simpa using stops

theorem sound_repetition? {text : List Char} {spelled : Spelled} (afterName : Bool)
    (found : repetition? text = some spelled) : spelled.Sound afterName ('.' :: '.' :: text) := by
  rcases exists_run isDigit text with ⟨digits, rest, rfl, all, ends⟩
  unfold repetition? at found
  simp only [takeWhile_run all ends, List.drop_left] at found
  split at found
  next => cases found
  next small =>
    rw [Nat.not_le] at small
    split at found
    next behind =>
      cases found
      have split : digits ++ '?' :: behind = (digits ++ ['?']) ++ behind := by simp
      exact ⟨congrArg ('.' :: '.' :: ·) split, .repetition true all small,
        fun _ isSymbol => by cases isSymbol⟩
    next =>
      cases found
      have spells := Spelling.repetition false all small
      rw [if_neg Bool.false_ne_true, List.append_nil] at spells
      exact ⟨rfl, spells, fun _ isSymbol => by cases isSymbol⟩

theorem sound_colonOrSymbol (afterName : Bool) (text : List Char) :
    (colonOrSymbol afterName text).Sound afterName (':' :: text) := by
  rcases exists_run continuesName text with ⟨name, rest, rfl, continues, ends⟩
  have colon : Spelled.Sound afterName (':' :: (name ++ rest)) ⟨.colon, [':'], name ++ rest⟩ :=
    ⟨rfl, .colon, fun _ isSymbol => by cases isSymbol⟩
  unfold colonOrSymbol
  simp only [takeWhile_run continues ends]
  split
  next first others =>
    split
    next starts =>
      rw [Bool.and_eq_true, Bool.not_eq_true'] at starts
      have isName : IsName (first :: others) := ⟨⟨first, rfl, starts.1⟩, continues⟩
      rw [List.drop_left]
      exact ⟨rfl, .symbol isName, fun _ _ => starts.2⟩
    next => exact colon
  next => exact colon

theorem exists_signed {text : List Char} (starts : startsNumber text) :
    ∃ negative whole behind, text = signOf negative ++ (whole ++ behind) ∧ AllDigits whole ∧
      Ends isDigit behind := by
  have digits : ∀ first others, isDigit first → ∃ whole behind,
      first :: others = whole ++ behind ∧ AllDigits whole ∧ Ends isDigit behind := by
    intro first others digit
    rcases exists_run isDigit others with ⟨run, rest, rfl, all, ends⟩
    exact ⟨first :: run, rest, rfl, ⟨List.cons_ne_nil _ _, List.forall_mem_cons.mpr ⟨digit, all⟩⟩,
      ends⟩
  unfold startsNumber at starts
  split at starts
  next first rest =>
    rcases digits first rest starts with ⟨whole, behind, split, all, ends⟩
    exact ⟨true, whole, behind, congrArg _ split, all, ends⟩
  next first rest _ =>
    rcases digits first rest starts with ⟨whole, behind, split, all, ends⟩
    exact ⟨false, whole, behind, split, all, ends⟩
  next => cases starts

theorem exists_pointed (text : List Char) :
    (∀ digit ∈ fractionDigits text, isDigit digit) ∧
      ∃ rest, text = pointed (fractionDigits text) ++ rest := by
  unfold fractionDigits
  split
  next behind =>
    rcases exists_run isDigit behind with ⟨digits, rest, rfl, all, ends⟩
    rw [takeWhile_run all ends]
    refine ⟨all, ?_⟩
    cases digits with
    | nil => exact ⟨_, rfl⟩
    | cons digit others => exact ⟨rest, rfl⟩
  next => exact ⟨List.forall_mem_nil _, text, rfl⟩

theorem exists_digits {first mark : Char} {sign sign' digits text : List Char}
    (found : (if (text.takeWhile isDigit).isEmpty then none
      else some (first, sign, text.takeWhile isDigit)) = some (mark, sign', digits)) :
    mark = first ∧ sign' = sign ∧ AllDigits digits ∧ ∃ rest, text = digits ++ rest := by
  rcases exists_run isDigit text with ⟨run, rest, rfl, all, ends⟩
  rw [takeWhile_run all ends] at found
  split at found
  next => cases found
  next some =>
    cases found
    exact ⟨rfl, rfl, ⟨fun none => some (List.isEmpty_iff.mpr none), all⟩, rest, rfl⟩

theorem exists_exponent {text sign digits : List Char} {mark : Char}
    (found : exponentParts? text = some (mark, sign, digits)) :
    IsMark mark ∧ IsExponentSign sign ∧ AllDigits digits ∧
      ∃ rest, text = mark :: (sign ++ (digits ++ rest)) := by
  unfold exponentParts? at found
  split at found
  next =>
    split at found
    next marked =>
      rw [Bool.or_eq_true, beq_iff_eq, beq_iff_eq] at marked
      dsimp only at found
      split at found
      next =>
        rcases exists_digits found with ⟨rfl, rfl, all, rest, split⟩
        exact ⟨marked, .inr (.inl rfl), all, rest, congrArg (mark :: '+' :: ·) split⟩
      next =>
        rcases exists_digits found with ⟨rfl, rfl, all, rest, split⟩
        exact ⟨marked, .inr (.inr rfl), all, rest, congrArg (mark :: '-' :: ·) split⟩
      next =>
        rcases exists_digits found with ⟨rfl, rfl, all, rest, split⟩
        exact ⟨marked, .inl rfl, all, rest, congrArg (mark :: ·) split⟩
    next => cases found
  next => cases found

theorem sound_number? {text : List Char} {spelled : Spelled} (afterName : Bool)
    (starts : startsNumber text) (found : number? text = some spelled) :
    spelled.Sound afterName text := by
  rcases exists_signed starts with ⟨negative, whole, behind, rfl, digits, ends⟩
  rcases exists_pointed behind with ⟨digits', later, split⟩
  generalize fraction : fractionDigits behind = point at digits' split
  subst split
  rw [number?_split negative point digits ends fraction] at found
  split at found
  next mark sign exponent parts =>
    rcases exists_exponent parts with ⟨isMark, isSign, size, rest, rfl⟩
    cases found
    refine ⟨?_, .exponential negative digits digits' isMark isSign size,
      fun _ isSymbol => by cases isSymbol⟩
    simp only [drop_exponent, List.append_assoc, List.cons_append]
  next =>
    split at found
    next none =>
      rcases Option.map_eq_some_iff.mp found with ⟨number, inRange, rfl⟩
      have spells := Spelling.int negative digits inRange
      rw [List.isEmpty_iff.mp none, show pointed [] = [] from rfl, List.append_nil, List.nil_append]
      exact ⟨(List.append_assoc _ _ _).symm, spells, fun _ isSymbol => by cases isSymbol⟩
    next some =>
      cases found
      have point : pointed point = '.' :: point := if_neg some
      refine ⟨by simp only [List.append_assoc], ?_, fun _ isSymbol => by cases isSymbol⟩
      rw [point]
      exact .decimal negative digits ⟨fun none => some (List.isEmpty_iff.mpr none), digits'⟩

theorem sound_name {first : Char} (afterName : Bool) (starts : startsName first)
    (others : List Char) :
    Spelled.Sound afterName (first :: others)
      ⟨.name (String.ofList ((first :: others).takeWhile continuesName)),
        (first :: others).takeWhile continuesName,
        (first :: others).drop ((first :: others).takeWhile continuesName).length⟩ := by
  refine ⟨?_, .name (isName_takeWhile starts), fun _ isSymbol => by cases isSymbol⟩
  rcases exists_run continuesName (first :: others) with ⟨name, rest, split, continues, ends⟩
  rw [split, takeWhile_run continues ends, List.drop_left]

theorem sound_numberOrName {afterName : Bool} {text : List Char} {spelled : Spelled}
    (read : numberOrName text = .ok spelled) : spelled.Sound afterName text := by
  unfold numberOrName at read
  split at read
  next starts =>
    split at read
    next found =>
      cases read
      exact sound_number? afterName starts found
    next => cases read
  next =>
    split at read
    next =>
      split at read
      next starts =>
        cases read
        exact sound_name afterName starts _
      next => cases read
    next => cases read

/-- What is read stands at the start of the text in one of its spellings. -/
theorem sound_read {afterName : Bool} {text : List Char} {spelled : Spelled}
    (read : read afterName text = .ok spelled) : spelled.Sound afterName text := by
  unfold Lexeme.read at read
  split at read
  case h_1 =>
    split at read
    next found =>
      cases read
      exact sound_repetition? afterName found
    next => cases read
  case h_13 =>
    cases read
    exact sound_colonOrSymbol afterName _
  case h_14 =>
    split at read
    next body found =>
      cases read
      rcases quotes_of_stringBody? _ body found with ⟨split, spelling, spelled, quotes⟩
      exact ⟨congrArg _ split, spelled ▸ .string quotes, fun _ isSymbol => by cases isSymbol⟩
    next => cases read
  case h_15 =>
    split at read
    next body found =>
      cases read
      rcases guarded_of_regexBody? _ body found with ⟨split, spelled⟩
      exact ⟨congrArg _ split, spelled ▸ .regex (isSource_of_regexBody? _ body found),
        fun _ isSymbol => by cases isSymbol⟩
    next => cases read
  case h_16 => exact sound_numberOrName read
  all_goals
    cases read
    refine ⟨rfl, ?_, fun _ isSymbol => by cases isSymbol⟩
  case h_2 => exact .opening .round
  case h_3 => exact .opening .square
  case h_4 => exact .opening .curly
  case h_5 => exact .closing .round
  case h_6 => exact .closing .square
  case h_7 => exact .closing .curly
  case h_8 => exact .comma
  case h_9 => exact .bar
  case h_10 => exact .ampersand
  case h_11 => exact .bang
  case h_12 => exact .arrow

end Destructure.Lexeme
