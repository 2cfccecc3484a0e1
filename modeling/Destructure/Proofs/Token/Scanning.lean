import Destructure.Proofs.Token.Numbers

/-!
Texts and the lexemes they are scanned to, without positions. What scanning finds are lexemes that
can be read, and a text that is put together from the spellings of such lexemes is scanned to these
lexemes, as far as the spelling of each is followed by something that does not lengthen it.
-/

namespace Destructure

open Text Number

namespace Lexeme

/-! ## Lexemes that can be read -/

def IsRounded : Binary64 → Prop
  | .finite _ mantissa exponent => Binary64.IsCanonical mantissa exponent
  | .infinite _ => True

def IsReadable : Lexeme → Prop
  | name text | symbol text => IsName text.toList
  | float number => IsRounded number
  | regex source => IsSource source.toList
  | repetition minimum _ => minimum < repetitionLimit
  | _ => True

theorem isRounded_toBinary64 (numeral : Numeral) : IsRounded numeral.toBinary64 := by
  rw [Numeral.toBinary64]
  cases result : Binary64.ofDecimal numeral.negative
      (natOfDigits (numeral.whole ++ numeral.fraction))
      (numeral.exponent - numeral.fraction.length) with
  | finite negative mantissa exponent => exact Binary64.isCanonical_of_ofDecimal result
  | infinite negative => trivial

theorem number?_isReadable {text : List Char} {spelled : Spelled}
    (found : number? text = some spelled) : spelled.lexeme.IsReadable := by
  unfold number? at found
  extract_lets negative sign unsigned whole behindWhole fraction point behindFraction at found
  split at found
  next =>
    cases found
    exact isRounded_toBinary64 _
  next =>
    split at found
    next =>
      rcases Option.map_eq_some_iff.mp found with ⟨number, -, rfl⟩
      trivial
    next =>
      cases found
      exact isRounded_toBinary64 _

theorem repetition?_isReadable {text : List Char} {spelled : Spelled}
    (found : repetition? text = some spelled) : spelled.lexeme.IsReadable := by
  unfold repetition? at found
  dsimp only at found
  split at found
  next => cases found
  next small =>
    split at found
    all_goals
      cases found
      exact Nat.not_le.mp small

theorem colonOrSymbol_isReadable (afterName : Bool) (text : List Char) :
    (colonOrSymbol afterName text).lexeme.IsReadable := by
  unfold colonOrSymbol
  dsimp only
  split
  next first others name =>
    split
    next starts =>
      rw [Bool.and_eq_true] at starts
      have continues : (first :: others).all continuesName := by
        rw [← name]
        exact List.all_takeWhile
      simp only [IsReadable, String.toList_ofList, name]
      exact ⟨⟨first, rfl, starts.1⟩, List.all_eq_true.mp continues⟩
    next => trivial
  next => trivial

theorem numberOrName_isReadable {text : List Char} {spelled : Spelled}
    (read : numberOrName text = .ok spelled) : spelled.lexeme.IsReadable := by
  unfold numberOrName at read
  split at read
  next =>
    split at read
    next found =>
      cases read
      exact number?_isReadable found
    next => cases read
  next =>
    split at read
    next =>
      split at read
      next starts =>
        cases read
        simp only [IsReadable, String.toList_ofList]
        exact isName_takeWhile starts
      next => cases read
    next => cases read

theorem read_isReadable {afterName : Bool} {text : List Char} {spelled : Spelled}
    (read : read afterName text = .ok spelled) : spelled.lexeme.IsReadable := by
  unfold Lexeme.read at read
  split at read
  case h_1 =>
    split at read
    next found =>
      cases read
      exact repetition?_isReadable found
    next => cases read
  case h_13 =>
    cases read
    exact colonOrSymbol_isReadable afterName _
  case h_14 =>
    split at read
    · cases read
      trivial
    · cases read
  case h_15 =>
    split at read
    next body found =>
      cases read
      simp only [IsReadable, String.toList_ofList]
      exact isSource_of_regexBody? _ body found
    next => cases read
  case h_16 => exact numberOrName_isReadable read
  all_goals
    cases read
    trivial

end Lexeme

theorem Token.scanFrom_isReadable {allowance position : Nat} {afterName : Bool} {text : List Char}
    {tokens : List Token} (scanned : scanFrom allowance position afterName text = .ok tokens) :
    ∀ token ∈ tokens, token.lexeme.IsReadable := by
  induction allowance generalizing position afterName text tokens with
  | zero =>
      cases scanned
      exact List.forall_mem_nil _
  | succ allowance induction =>
      rw [scanFrom] at scanned
      split at scanned
      next =>
        cases scanned
        exact List.forall_mem_nil _
      next =>
        split at scanned
        next => cases scanned
        next spelled read =>
          split at scanned
          next => cases scanned
          next others later =>
            cases scanned
            exact List.forall_mem_cons.mpr ⟨Lexeme.read_isReadable read, induction later⟩

theorem Token.scan_isReadable {text : List Char} {tokens : List Token}
    (scanned : scan text = .ok tokens) : ∀ lexeme ∈ tokens.map Token.lexeme, lexeme.IsReadable :=
  List.forall_mem_map.mpr (scanFrom_isReadable scanned)

namespace Lexeme

/-! ## Runs of the scanner -/

/-- The scanner takes the lexemes, with layout between them, and goes on with the rest. Between two
lexemes it knows of the first one whether it is a name. -/
inductive Takes : (afterName : Bool) → List Char → List Lexeme → Bool → List Char → Prop where
  | stay (afterName : Bool) (text : List Char) : Takes afterName text [] afterName text
  | blank {afterName afterNameToo character text lexemes rest} : isBlank character →
      Takes afterName text lexemes afterNameToo rest →
      Takes afterName (character :: text) lexemes afterNameToo rest
  | lexeme {afterName afterNameToo first others spelling lexeme behind lexemes rest} :
      read afterName (first :: (others ++ behind)) = .ok ⟨lexeme, spelling, behind⟩ →
      Takes lexeme.isName behind lexemes afterNameToo rest →
      Takes afterName (first :: (others ++ behind)) (lexeme :: lexemes) afterNameToo rest

theorem Takes.trans {afterName between afterNameToo : Bool} {text behind rest : List Char}
    {lexemes others : List Lexeme} (takes : Takes afterName text lexemes between behind)
    (takesToo : Takes between behind others afterNameToo rest) :
    Takes afterName text (lexemes ++ others) afterNameToo rest := by
  induction takes with
  | stay => exact takesToo
  | blank blank takes induction => exact .blank blank (induction takesToo)
  | lexeme read takes induction => exact .lexeme read (induction takesToo)

def Halts (afterName : Bool) (text : List Char) : Prop :=
  ∃ lexemes afterNameToo first others complaint,
    Takes afterName text lexemes afterNameToo (first :: others) ∧ isBlank first = false ∧
      read afterNameToo (first :: others) = .error complaint

theorem Takes.halts {afterName afterNameToo : Bool} {text rest : List Char}
    {lexemes : List Lexeme} (takes : Takes afterName text lexemes afterNameToo rest)
    (halts : Halts afterNameToo rest) : Halts afterName text := by
  rcases halts with ⟨others, between, first, behind, complaint, takesToo, refused⟩
  exact ⟨_, _, _, _, _, takes.trans takesToo, refused⟩

end Lexeme

namespace Token

theorem scanFrom_blank (allowance position : Nat) (afterName : Bool) {character : Char}
    (blank : isBlank character) (text : List Char) :
    scanFrom (allowance + 1) position afterName (character :: text) =
      scanFrom (allowance + 1) (position + character.utf8Size) afterName text := by
  rw [scanFrom, scanFrom, List.takeWhile_cons_of_pos blank, List.dropWhile_cons_of_pos blank,
    byteLength, ← Nat.add_assoc]

theorem scanFrom_visible (allowance position : Nat) (afterName : Bool) {first : Char}
    (visible : ¬isBlank first) (rest : List Char) :
    scanFrom (allowance + 1) position afterName (first :: rest) =
      match Lexeme.read afterName (first :: rest) with
      | .error complaint => .error ⟨position, complaint⟩
      | .ok spelled =>
        match scanFrom allowance (position + byteLength spelled.spelling) spelled.lexeme.isName
            spelled.rest with
        | .error error => .error error
        | .ok tokens => .ok (⟨spelled.lexeme, position⟩ :: tokens) := by
  rw [scanFrom, List.takeWhile_cons_of_neg visible, List.dropWhile_cons_of_neg visible]
  rfl

/-- What the scanner takes are its first tokens, and it goes on behind them. -/
theorem scanFrom_of_takes {afterName afterNameToo : Bool} {text rest : List Char}
    {lexemes : List Lexeme} (takes : Lexeme.Takes afterName text lexemes afterNameToo rest) :
    ∀ allowance position, text.length < allowance →
      ∃ allowanceToo positionToo tokens, rest.length < allowanceToo ∧
        tokens.map lexeme = lexemes ∧
        scanFrom allowance position afterName text =
          (scanFrom allowanceToo positionToo afterNameToo rest).map (tokens ++ ·) := by
  induction takes with
  | stay afterName text =>
      intro allowance position enough
      refine ⟨allowance, position, [], enough, rfl, ?_⟩
      cases scanFrom allowance position afterName text <;> rfl
  | blank blank takes induction =>
      intro allowance position enough
      cases allowance with
      | zero => exact absurd enough (Nat.not_lt_zero _)
      | succ allowance =>
          rw [scanFrom_blank allowance position _ blank]
          exact induction _ _ (Nat.lt_of_succ_lt enough)
  | @lexeme afterName afterNameToo first others spelling lexeme behind lexemes rest read takes
      induction =>
      intro allowance position enough
      cases allowance with
      | zero => exact absurd enough (Nat.not_lt_zero _)
      | succ allowance =>
          have shorter : behind.length < allowance := by
            rw [List.length_cons, List.length_append] at enough
            omega
          rw [scanFrom_visible allowance position _ fun blank => Lexeme.not_read_blank blank _ read,
            read]
          dsimp only
          rcases induction allowance (position + byteLength spelling) shorter with
            ⟨allowanceToo, positionToo, tokens, enoughToo, spelled, scanned⟩
          refine ⟨allowanceToo, positionToo, ⟨lexeme, position⟩ :: tokens, enoughToo,
            congrArg _ spelled, ?_⟩
          rw [scanned]
          cases scanFrom allowanceToo positionToo afterNameToo rest <;> rfl

theorem scan_of_takes {afterName : Bool} {text : List Char} {lexemes : List Lexeme}
    (takes : Lexeme.Takes false text lexemes afterName []) :
    ∃ tokens, scan text = .ok tokens ∧ tokens.map lexeme = lexemes := by
  rcases scanFrom_of_takes takes (text.length + 1) 0 (Nat.lt_succ_self _) with
    ⟨allowance, position, tokens, enough, spelled, scanned⟩
  refine ⟨tokens, ?_, spelled⟩
  rw [scan, scanned]
  cases allowance with
  | zero => exact absurd enough (Nat.not_lt_zero _)
  | succ allowance => exact congrArg Except.ok (List.append_nil tokens)

theorem scan_of_halts {text : List Char} (halts : Lexeme.Halts false text) :
    ∃ error, scan text = .error error := by
  rcases halts with ⟨lexemes, afterName, first, others, complaint, takes, visible, read⟩
  rcases scanFrom_of_takes takes (text.length + 1) 0 (Nat.lt_succ_self _) with
    ⟨allowance, position, tokens, enough, -, scanned⟩
  rw [scan, scanned]
  cases allowance with
  | zero => exact absurd enough (Nat.not_lt_zero _)
  | succ allowance =>
      rw [scanFrom_visible allowance position _ (by rw [visible]; exact Bool.false_ne_true), read]
      exact ⟨_, rfl⟩

end Token

namespace Lexeme

/-! ## Spellings -/

def Spells (text : List Char) (lexemes : List Lexeme) : Prop :=
  ∀ rest, Stops rest → ∃ afterName, Takes false (text ++ rest) lexemes afterName rest

def Breaks (text : List Char) : Prop := ∀ rest, Stops rest → Halts false (text ++ rest)

theorem spells_nil : Spells [] [] := fun rest _ => ⟨false, .stay false rest⟩

theorem spells_of_read {text : List Char} {lexeme : Lexeme}
    (reads : ∀ rest, Stops rest → ∃ spelling,
      read false (text ++ rest) = .ok ⟨lexeme, spelling, rest⟩) :
    Spells text [lexeme] := by
  intro rest stops
  cases text with
  | nil =>
      rcases reads [] stops_nil with ⟨spelling, read⟩
      cases read
  | cons first others =>
      rcases reads rest stops with ⟨spelling, read⟩
      exact ⟨_, .lexeme read (.stay _ _)⟩

theorem spells_name {name : List Char} (isName : IsName name) :
    Spells name [.name (String.ofList name)] :=
  spells_of_read fun _ stops => ⟨_, read_name isName stops.endsName false⟩

theorem spells_symbol {name : List Char} (isName : IsName name) :
    Spells (':' :: name) [.symbol (String.ofList name)] :=
  spells_of_read fun _ stops => ⟨_, read_symbol isName stops.endsName⟩

theorem spells_quoteText (text : List Char) :
    Spells (quoteText text) [.string (String.ofList (reread text))] :=
  spells_of_read fun rest _ => ⟨_, read_quoteText false text rest⟩

theorem spells_int (number : Int64) : Spells (digitsOfInt number.toInt) [.int number] :=
  spells_of_read fun _ stops => read_int false number stops

theorem spells_float (negative : Bool) {mantissa : Nat} {exponent : Int}
    (canonical : Binary64.IsCanonical mantissa exponent) :
    Spells (Binary64.finite negative mantissa exponent).text
      [.float (.finite negative mantissa exponent)] :=
  spells_of_read fun _ stops => read_float false negative canonical stops

theorem spells_regex {regex : Regex} (isSource : IsSource regex.source.toList) :
    Spells regex.render [.regex regex.source] :=
  spells_of_read fun rest _ => ⟨_, read_regex false isSource rest⟩

/-! ## Separators -/

/-- The text is a separator with the layout around it, wherever it stands. -/
structure Separates (separator : List Char) (lexeme : Lexeme) : Prop where
  stops : ∀ rest, Stops (separator ++ rest)
  takes : ∀ afterName rest, Takes afterName (separator ++ rest) [lexeme] false rest

theorem separates_of_read {character : Char} {lexeme : Lexeme}
    (outside : continuesName character = false) (notPoint : character ≠ '.')
    (notMark : character ≠ '?') (notName : lexeme.isName = false)
    (read : ∀ afterName rest,
      read afterName (character :: rest) = .ok ⟨lexeme, [character], rest⟩) :
    Separates [character] lexeme where
  stops := stops_cons outside notPoint notMark
  takes afterName rest := by
    have taken : Takes afterName (character :: ([] ++ rest)) [lexeme] lexeme.isName rest :=
      .lexeme (read afterName rest) (.stay _ rest)
    rw [notName] at taken
    exact taken

theorem separates_opening (bracket : Bracket) :
    Separates [bracket.opening] (.opening bracket) := by
  cases bracket <;>
    exact separates_of_read (by decide) (by decide) (by decide) rfl fun _ _ => rfl

theorem separates_closing (bracket : Bracket) :
    Separates [bracket.closing] (.closing bracket) := by
  cases bracket <;>
    exact separates_of_read (by decide) (by decide) (by decide) rfl fun _ _ => rfl

theorem separates_comma : Separates [',', ' '] .comma where
  stops rest := stops_cons (by decide) (by decide) (by decide) _
  takes afterName rest := by
    show Takes afterName (',' :: ([] ++ ' ' :: rest)) _ _ _
    exact .lexeme rfl (.blank (by decide) (.stay _ rest))

theorem separates_arrow : Separates [' ', '=', '>', ' '] .arrow where
  stops rest := stops_cons (by decide) (by decide) (by decide) _
  takes afterName rest := by
    show Takes afterName (' ' :: '=' :: (['>'] ++ ' ' :: rest)) _ _ _
    exact .blank (by decide) (.lexeme rfl (.blank (by decide) (.stay _ rest)))

theorem Spells.then {text separator others : List Char} {lexemes behind : List Lexeme}
    {lexeme : Lexeme} (spells : Spells text lexemes) (separates : Separates separator lexeme)
    (spellsOthers : Spells others behind) :
    Spells (text ++ separator ++ others) (lexemes ++ lexeme :: behind) := by
  intro rest stops
  rw [List.append_assoc, List.append_assoc]
  rcases spells _ (separates.stops (others ++ rest)) with ⟨afterName, takes⟩
  rcases spellsOthers rest stops with ⟨afterNameToo, takesOthers⟩
  exact ⟨afterNameToo, takes.trans ((separates.takes afterName _).trans takesOthers)⟩

theorem Spells.enclosed {name text : List Char} {lexemes inner : List Lexeme}
    (spellsName : Spells name lexemes) (bracket : Bracket) (spells : Spells text inner) :
    Spells (name ++ bracket.opening :: text ++ [bracket.closing])
      (lexemes ++ .opening bracket :: (inner ++ [.closing bracket])) := by
  have whole := spellsName.then (separates_opening bracket)
    (spells.then (separates_closing bracket) spells_nil)
  rwa [List.append_nil, ← List.append_assoc, List.append_assoc name] at whole

theorem takes_field {name : List Char} (isName : IsName name) (rest : List Char) :
    Takes false (name ++ [':', ' '] ++ rest) [.name (String.ofList name), .colon] false rest := by
  have ends : Ends continuesName (':' :: ' ' :: rest) := by
    intro next member
    cases member
    decide
  have colon : Takes true (':' :: ([] ++ ' ' :: rest)) [.colon] false rest :=
    .lexeme (read_colon _) (.blank (by decide) (.stay false rest))
  have read := read_name isName ends false
  rw [List.append_assoc]
  cases name with
  | nil =>
      rcases isName.starts with ⟨first, member, starts⟩
      cases member
  | cons first others => exact .lexeme read colon

theorem Spells.field {name text : List Char} {lexemes : List Lexeme} (isName : IsName name)
    (spells : Spells text lexemes) :
    Spells (name ++ [':', ' '] ++ text) (.name (String.ofList name) :: .colon :: lexemes) := by
  intro rest stops
  rcases spells rest stops with ⟨afterName, takes⟩
  rw [List.append_assoc]
  exact ⟨afterName, (takes_field isName _).trans takes⟩

/-! ## Texts that are not spelled -/

theorem Breaks.append {text separator : List Char} {lexeme : Lexeme} (breaks : Breaks text)
    (separates : Separates separator lexeme) (others : List Char) :
    Breaks (text ++ separator ++ others) := by
  intro rest stops
  rw [List.append_assoc, List.append_assoc]
  exact breaks _ (separates.stops _)

theorem Spells.breaks {text separator others : List Char} {lexemes : List Lexeme}
    {lexeme : Lexeme} (spells : Spells text lexemes) (separates : Separates separator lexeme)
    (breaks : Breaks others) : Breaks (text ++ separator ++ others) := by
  intro rest stops
  rw [List.append_assoc, List.append_assoc]
  rcases spells _ (separates.stops (others ++ rest)) with ⟨afterName, takes⟩
  exact (takes.trans (separates.takes afterName _)).halts (breaks rest stops)

theorem Breaks.field {name text : List Char} (isName : IsName name) (breaks : Breaks text) :
    Breaks (name ++ [':', ' '] ++ text) := by
  intro rest stops
  rw [List.append_assoc]
  exact (takes_field isName _).halts (breaks rest stops)

theorem breaks_infinite : Breaks (Binary64.infinite true).text := by
  intro rest stops
  exact ⟨[], false, '-', 'i' :: 'n' :: 'f' :: rest, _, .stay _ _, by decide, rfl⟩

theorem spells_infinite : Spells (Binary64.infinite false).text [.name "inf"] :=
  spells_name (by decide)

end Lexeme

end Destructure
