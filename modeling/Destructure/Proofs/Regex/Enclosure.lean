import Destructure.Proofs.Regex.Endings

/-!
Reading an expression inside a group that has been put around it. What can be read by itself is
read as the same expression there, unless a comment hides the bracket that closes the group.

Main statement: `alternatives?_ended`.
-/

namespace Destructure.Regex

/-! ## Sets in brackets -/

def named? (flags : Flags) (negated : Bool) (text : List Char) :
    Option (CharacterSet × List Char) :=
  match namedIntervals? (String.ofList (text.takeWhile (· != ':'))),
      text.drop (text.takeWhile (· != ':')).length with
  | some intervals, ':' :: ']' :: behind =>
    some (if negated then .complement (.intervals flags.ignoreCase intervals)
      else .intervals flags.ignoreCase intervals, behind)
  | _, _ => none

theorem namedSet?_colon (flags : Flags) (text : List Char) :
    namedSet? flags (':' :: text) = named? flags (text.head? == some '^')
      (if text.head? == some '^' then text.drop 1 else text) :=
  rfl

theorem Ended.head? {text ended : List Char} (relation : Ended text ended) (character : Char)
    (other : character ≠ ')') :
    (text.head? == some character) = (ended.head? == some character) := by
  cases text with
  | nil =>
      rcases relation.of_nil with rfl | rfl
      · simpa [ending] using Ne.symm other
      · rfl
  | cons first rest =>
      rcases relation.of_cons with ⟨others, rfl, _⟩
      rfl

theorem Ended.takeWhile_of_drop_nil {text ended : List Char} (relation : Ended text ended)
    {property : Char → Bool} (goesOn : ending.takeWhile property = ending)
    (exhausted : text.drop (text.takeWhile property).length = []) :
    ended.drop (ended.takeWhile property).length = [] := by
  cases relation with
  | hidden => rfl
  | behind =>
      have all : (text.takeWhile property).length = text.length :=
        Nat.le_antisymm (List.takeWhile_sublist property).length_le
          (List.drop_eq_nil_iff.mp exhausted)
      rw [List.takeWhile_append, if_pos all, goesOn, List.drop_length]

/-- A named set is one in front of the ending, and nothing else becomes one there. -/
theorem Ended.named? {text ended : List Char} (relation : Ended text ended) (flags : Flags)
    (negated : Bool) :
    named? flags negated text = none ∧ Regex.named? flags negated ended = none ∨
      ∃ set rest others, Regex.named? flags negated text = some (set, rest) ∧
        Regex.named? flags negated ended = some (set, others) ∧ Ended rest others := by
  unfold Regex.named?
  cases left : text.drop (text.takeWhile (· != ':')).length with
  | nil =>
      rw [relation.takeWhile_of_drop_nil rfl left]
      exact .inl ⟨by simp, by simp⟩
  | cons first rest =>
      rcases relation.takeWhile left with ⟨same, others, leftEnded, following⟩
      rw [same, leftEnded]
      cases namedIntervals? (String.ofList (text.takeWhile (· != ':'))) with
      | none => exact .inl ⟨rfl, rfl⟩
      | some intervals =>
          by_cases closes : ∃ behind, first :: rest = ':' :: ']' :: behind
          · rcases closes with ⟨behind, closes⟩
            cases closes
            rcases following.of_cons with ⟨others, rfl, further⟩
            exact .inr ⟨_, behind, others, rfl, rfl, further⟩
          · left
            constructor
            · split
              next behind _ same => exact absurd ⟨behind, same⟩ closes
              next => rfl
            · split
              next behind _ same =>
                cases same
                exact (following.ne_append [']'] (fun behind same =>
                  closes ⟨behind, congrArg _ same⟩) (by decide) behind rfl).elim
              next => rfl

theorem Ended.namedSet? {text ended : List Char} (relation : Ended text ended) (flags : Flags) :
    namedSet? flags text = none ∧ Regex.namedSet? flags ended = none ∨
      ∃ set rest others, Regex.namedSet? flags text = some (set, rest) ∧
        Regex.namedSet? flags ended = some (set, others) ∧ Ended rest others := by
  by_cases colon : ∃ name, text = ':' :: name
  · rcases colon with ⟨name, rfl⟩
    rcases relation.of_cons with ⟨others, rfl, following⟩
    have mark := following.head? '^' (by decide)
    rw [namedSet?_colon, namedSet?_colon, ← mark]
    cases name with
    | nil => exact following.named? flags false
    | cons first name =>
        rcases following.of_cons with ⟨others, rfl, further⟩
        split
        · exact further.named? flags _
        · exact following.named? flags _
  · have unnamed (text : List Char) (other : ∀ name, text = ':' :: name → False) :
        Regex.namedSet? flags text = none := by
      unfold Regex.namedSet?
      split
      next name => exact (other name rfl).elim
      next => rfl
    have plain := fun name same => colon ⟨name, same⟩
    exact .inl ⟨unnamed text plain, unnamed ended (relation.ne_append [':'] plain (by decide))⟩

theorem persists_setItem (flags : Flags) : Persists (setItem? flags) (setItem? flags) := by
  intro text ended item rest relation read
  cases text with
  | nil => cases read
  | cons first text =>
      rcases relation.of_cons with ⟨others, rfl, following⟩
      by_cases escaped : first = '\\'
      · subst escaped
        exact persists_escape flags following read
      · rw [setItem?] at read ⊢
        · cases read
          exact ⟨others, rfl, following⟩
        all_goals exact escaped

/-- The ending decides nothing about a minus sign. -/
theorem Ended.deciding? {text ended : List Char} (relation : Ended text ended) (flags : Flags)
    (character : Char) (other : character ≠ ')') :
    (deciding? flags text == some character) = (Regex.deciding? flags ended == some character) := by
  unfold Regex.deciding?
  split
  · have dropped := relation.dropWhile Text.isBlank (by decide +kernel)
    generalize text.dropWhile Text.isBlank = text, ended.dropWhile Text.isBlank = ended at dropped
    split
    next comment =>
      rcases dropped.of_cons with ⟨others, rfl, following⟩
      exact (following.dropWhile Text.isBlank (by decide +kernel)).head? character other
    next number =>
      have number := dropped.ne_append ['#'] number (by decide)
      split
      next comment => exact (number comment rfl).elim
      next => exact dropped.head? character other
  · exact relation.head? character other

def interval? (flags : Flags) (first : Escape) (text : List Char) :
    Option (CharacterSet × List Char) :=
  (setItem? flags (skip flags text)).bind fun found =>
    match first, found.1 with
    | .literal lowest, .literal highest =>
      if lowest ≤ highest then some (.intervals flags.ignoreCase [(lowest, highest)], found.2)
      else none
    | _, _ => none

theorem persists_interval (flags : Flags) (first : Escape) :
    Persists (interval? flags first) (interval? flags first) := by
  intro text ended set rest relation read
  rcases Option.bind_eq_some_iff.mp read with ⟨⟨last, behind⟩, item, made⟩
  rcases persists_setItem flags (relation.skip flags) item with ⟨others, items, further⟩
  rw [interval?, items, Option.bind_some]
  dsimp only at made ⊢
  split at made
  next lowest highest =>
    split at made
    next le =>
      cases made
      exact ⟨others, if_pos le, further⟩
    next => cases made
  next => cases made

def setRangeFrom? (flags : Flags) (first : Escape) :
    List Char → Option (CharacterSet × List Char)
  | [] => none
  | '-' :: behind =>
    if deciding? flags behind == some ']' || deciding? flags behind == some '-' then
      (first.toSet? flags).map fun set => (set, '-' :: behind)
    else interval? flags first behind
  | rest => (first.toSet? flags).map fun set => (set, rest)

theorem setRange?_eq (flags : Flags) (text : List Char) :
    setRange? flags text = (setItem? flags text).bind fun found =>
      setRangeFrom? flags found.1 (skip flags found.2) := rfl

theorem persists_setRangeFrom (flags : Flags) (first : Escape) :
    Persists (setRangeFrom? flags first) (setRangeFrom? flags first) := by
  intro text ended set rest relation read
  fun_cases setRangeFrom? flags first text
  case case1 => cases read
  case case2 behind plain =>
    rcases relation.of_cons with ⟨others, rfl, further⟩
    rw [setRangeFrom?, if_pos plain] at read
    rw [setRangeFrom?, ← further.deciding? flags ']' (by decide),
      ← further.deciding? flags '-' (by decide), if_pos plain]
    rcases Option.map_eq_some_iff.mp read with ⟨set, single, made⟩
    cases made
    rw [single]
    exact ⟨_, rfl, relation⟩
  case case3 behind bounded =>
    rcases relation.of_cons with ⟨others, rfl, further⟩
    rw [setRangeFrom?, if_neg bounded] at read
    rw [setRangeFrom?, ← further.deciding? flags ']' (by decide),
      ← further.deciding? flags '-' (by decide), if_neg bounded]
    exact persists_interval flags first further read
  case case4 filled signed =>
    have item {text : List Char} (filled : text = [] → False)
        (signed : ∀ behind, text = '-' :: behind → False) : setRangeFrom? flags first text =
          (first.toSet? flags).map fun set => (set, text) := by
      rw [setRangeFrom?] <;> assumption
    rw [item filled signed] at read
    rcases Option.map_eq_some_iff.mp read with ⟨set, single, made⟩
    cases made
    rw [item (relation.ne_nil filled) (relation.ne_append ['-'] signed (by decide)), single]
    exact ⟨_, rfl, relation⟩

theorem persists_setRange (flags : Flags) : Persists (setRange? flags) (setRange? flags) := by
  intro text ended set rest relation read
  rcases Option.bind_eq_some_iff.mp read with ⟨⟨first, behind⟩, item, made⟩
  rcases persists_setItem flags relation item with ⟨others, items, following⟩
  rw [setRange?_eq, items, Option.bind_some]
  exact persists_setRangeFrom flags first (following.skip flags) made

def leadingItems (flags : Flags) (text : List Char) : List CharacterSet × List Char :=
  let found := setOpening.leadingMinuses flags text.length text
  match found.1, found.2 with
  | [], ']' :: rest => ([.single flags.ignoreCase ']'], rest)
  | minuses, rest => (minuses, rest)

def behindMark (flags : Flags) (text : List Char) : List Char :=
  if text.head? == some '^' then skip flags (text.drop 1) else text

theorem setOpening_eq (flags : Flags) (text : List Char) :
    setOpening flags text = ((skip flags text).head? == some '^',
      leadingItems flags (behindMark flags (skip flags text))) := by
  unfold setOpening leadingItems behindMark
  dsimp only
  generalize setOpening.leadingMinuses flags _ _ = found
  rcases found with ⟨minuses, rest⟩
  dsimp only
  split
  next => rfl
  next => simp

theorem Ended.behindMark {text ended : List Char} (relation : Ended text ended) (flags : Flags) :
    Ended (behindMark flags text) (Regex.behindMark flags ended) := by
  unfold Regex.behindMark
  rw [← relation.head? '^' (by decide)]
  split
  next negated =>
    cases text with
    | nil => cases negated
    | cons first rest =>
        rcases relation.of_cons with ⟨others, rfl, following⟩
        exact following.skip flags
  next => exact relation

theorem Ended.leadingItems {text ended : List Char} (relation : Ended text ended) (flags : Flags) :
    (leadingItems flags text).1 = (Regex.leadingItems flags ended).1 ∧
      Ended (Regex.leadingItems flags text).2 (Regex.leadingItems flags ended).2 := by
  rcases relation.spell (· == '-') (by decide) flags (Nat.le_refl _) (Nat.le_refl _) with
    ⟨minuses, left⟩
  unfold Regex.leadingItems
  rw [leadingMinuses_eq_spell, leadingMinuses_eq_spell, minuses]
  dsimp only
  generalize (Regex.spell (· == '-') flags text.length text).2 = rest,
    (Regex.spell (· == '-') flags ended.length ended).2 = restEnded at left ⊢
  cases (Regex.spell (· == '-') flags text.length text).1 with
  | cons minus others => exact ⟨rfl, left⟩
  | nil =>
      rw [List.map_nil]
      split
      next rest _ =>
        rcases left.of_cons with ⟨others, rfl, following⟩
        exact ⟨rfl, following⟩
      next other =>
        split
        next others _ =>
          exact (left.ne_append [']'] (fun rest => other rest rfl) (by decide) others rfl).elim
        next => exact ⟨rfl, left⟩

theorem Ended.setOpening {text ended : List Char} (relation : Ended text ended) (flags : Flags) :
    (setOpening flags text).1 = (Regex.setOpening flags ended).1 ∧
      (Regex.setOpening flags text).2.1 = (Regex.setOpening flags ended).2.1 ∧
      Ended (Regex.setOpening flags text).2.2 (Regex.setOpening flags ended).2.2 := by
  have skipped := relation.skip flags
  rw [setOpening_eq, setOpening_eq]
  exact ⟨skipped.head? '^' (by decide), (skipped.behindMark flags).leadingItems flags⟩

inductive SetPiece.Ended : SetPiece → SetPiece → Prop
  | close {rest others : List Char} : Regex.Ended rest others → Ended (.close rest) (.close others)
  | opening {rest others : List Char} :
      Regex.Ended rest others → Ended (.opening rest) (.opening others)
  | operator {rest others : List Char} (operator : SetOperator) :
      Regex.Ended rest others → Ended (.operator operator rest) (.operator operator others)
  | item {rest others : List Char} (set : CharacterSet) :
      Regex.Ended rest others → Ended (.item set rest) (.item set others)

theorem Ended.setPiece? {flags : Flags} {text ended : List Char} {piece : SetPiece}
    (relation : Ended text ended) (read : setPiece? flags text = some piece) :
    ∃ pieceEnded, Regex.setPiece? flags ended = some pieceEnded ∧ piece.Ended pieceEnded := by
  fun_cases Regex.setPiece? flags text
  case case1 => cases read
  case case2 =>
    rcases relation.of_cons with ⟨others, rfl, following⟩
    cases read
    exact ⟨_, rfl, .close following⟩
  case case3 rest found named =>
    rcases relation.of_cons with ⟨others, rfl, following⟩
    rcases following.namedSet? flags with ⟨absent, _⟩ |
      ⟨set, left, leftEnded, same, sameEnded, behind⟩
    · rw [absent] at named
      cases named
    · rw [Regex.setPiece?, same] at read
      cases read
      rw [Regex.setPiece?, sameEnded]
      exact ⟨_, rfl, .item set behind⟩
  case case4 rest unnamed =>
    rcases relation.of_cons with ⟨others, rfl, following⟩
    rcases following.namedSet? flags with ⟨_, absent⟩ | ⟨set, left, leftEnded, same, _⟩
    · rw [Regex.setPiece?, unnamed] at read
      cases read
      rw [Regex.setPiece?, absent]
      exact ⟨_, rfl, .opening following⟩
    · rw [same] at unnamed
      cases unnamed
  case case5 | case6 | case7 =>
    rcases relation.of_cons with ⟨_, rfl, second⟩
    rcases second.of_cons with ⟨others, rfl, following⟩
    cases read
    exact ⟨_, rfl, .operator _ following⟩
  case case8 filled close opening both without one =>
    have range {text : List Char} (filled : text = [] → False)
        (close : ∀ rest, text = ']' :: rest → False) (opening : ∀ rest, text = '[' :: rest → False)
        (both : ∀ rest, text = '&' :: '&' :: rest → False)
        (without : ∀ rest, text = '-' :: '-' :: rest → False)
        (one : ∀ rest, text = '~' :: '~' :: rest → False) : Regex.setPiece? flags text =
          (setRange? flags text).map fun found => .item found.1 found.2 := by
      rw [Regex.setPiece?] <;> assumption
    rw [range filled close opening both without one] at read
    rcases Option.map_eq_some_iff.mp read with ⟨⟨set, rest⟩, stands, made⟩
    cases made
    rcases persists_setRange flags relation stands with ⟨others, standsEnded, following⟩
    rw [range (relation.ne_nil filled) (relation.ne_append [']'] close (by decide))
      (relation.ne_append ['['] opening (by decide))
      (relation.ne_append ['&', '&'] both (by decide))
      (relation.ne_append ['-', '-'] without (by decide))
      (relation.ne_append ['~', '~'] one (by decide)), standsEnded]
    exact ⟨_, rfl, .item set following⟩

theorem persists_setBody {flags : Flags} {allowance further : Nat} (enough : allowance ≤ further)
    (negated : Bool) (pending : PendingOperator) (items : List CharacterSet) :
    Persists (setBody? flags allowance negated pending items)
      (setBody? flags further negated pending items) := by
  induction allowance generalizing further negated pending items with
  | zero =>
      intro text ended set rest relation read
      cases read
  | succ allowance induction =>
      cases further with
      | zero => cases enough
      | succ further =>
          replace enough := Nat.le_of_succ_le_succ enough
          intro text ended set rest relation read
          rw [setBody?_succ, Option.bind_eq_some_iff] at read
          rcases read with ⟨piece, stands, follows⟩
          rcases (relation.skip flags).setPiece? stands with ⟨pieceEnded, standsEnded, same⟩
          rw [setBody?_succ, standsEnded, Option.bind_some]
          cases same with
          | close relation =>
              cases follows
              exact ⟨_, rfl, relation⟩
          | opening relation =>
              rcases relation.setOpening flags with ⟨sameMark, sameItems, opened⟩
              rcases Option.bind_eq_some_iff.mp follows with ⟨⟨inner, left⟩, closed, follows⟩
              rcases induction enough _ _ _ opened closed with ⟨leftEnded, closes, behind⟩
              rw [followSet?, ← sameMark, ← sameItems, closes, Option.bind_some]
              exact induction enough _ _ _ behind follows
          | operator operator relation => exact induction enough _ _ _ relation follows
          | item set relation => exact induction enough _ _ _ relation follows

theorem persists_bracketSet (flags : Flags) : Persists (bracketSet? flags) (bracketSet? flags) := by
  intro text ended set rest relation read
  rcases relation.setOpening flags with ⟨sameMark, sameItems, opened⟩
  unfold bracketSet? at read ⊢
  dsimp only at read ⊢
  rw [← sameMark, ← sameItems]
  exact persists_setBody (Nat.succ_le_succ opened.length_le) _ _ _ opened read

/-! ## Pieces -/

inductive Piece.Ended : Piece → Piece → Prop
  | close {rest others : List Char} : Regex.Ended rest others → Ended (.close rest) (.close others)
  | bar {rest others : List Char} : Regex.Ended rest others → Ended (.bar rest) (.bar others)
  | opening {rest others : List Char} :
      Regex.Ended rest others → Ended (.opening rest) (.opening others)
  | unit {rest others : List Char} (expression : Expression) :
      Regex.Ended rest others → Ended (.unit expression rest) (.unit expression others)
  | times {rest others : List Char} (minimum : Nat) (maximum : Option Nat) (greedy : Bool) :
      Regex.Ended rest others →
        Ended (.times minimum maximum greedy rest) (.times minimum maximum greedy others)

theorem Ended.greediness {text ended : List Char} (relation : Ended text ended) (flags : Flags) :
    (greediness flags ended).1 = (Regex.greediness flags text).1 ∧
      Ended (Regex.greediness flags text).2 (Regex.greediness flags ended).2 := by
  unfold Regex.greediness
  split
  next others =>
    split
    next rest =>
      rcases relation.of_cons with ⟨_, same, following⟩
      cases same
      exact ⟨rfl, following⟩
    next plain => exact (relation.ne_append ['?'] plain (by decide) others rfl).elim
  next plain =>
    split
    next rest =>
      rcases relation.of_cons with ⟨others, same, _⟩
      exact (plain others same).elim
    next => exact ⟨rfl, relation⟩

theorem Ended.repetition {text ended : List Char} (relation : Ended text ended) (flags : Flags)
    (minimum : Nat) (maximum : Option Nat) :
    (Piece.repetition flags minimum maximum text).Ended
      (Piece.repetition flags minimum maximum ended) := by
  rcases relation.greediness flags with ⟨same, following⟩
  unfold Piece.repetition
  rw [same]
  exact .times minimum maximum _ following

/-- What stands at the front of a text is the same in front of the ending. -/
theorem Ended.piece? {flags : Flags} {text ended : List Char} {piece : Piece}
    (relation : Ended text ended) (read : piece? flags text = some piece) :
    ∃ pieceEnded, Regex.piece? flags ended = some pieceEnded ∧ piece.Ended pieceEnded := by
  fun_cases Regex.piece? flags text
  case case1 =>
    cases read
    rcases relation.of_nil with rfl | rfl
    · exact ⟨_, rfl, .close relation⟩
    · exact ⟨_, rfl, .close relation⟩
  all_goals rcases relation.of_cons with ⟨others, rfl, following⟩
  case case2 => cases read; exact ⟨_, rfl, .close relation⟩
  case case3 => cases read; exact ⟨_, rfl, .bar following⟩
  case case4 => cases read; exact ⟨_, rfl, .opening following⟩
  case case5 =>
    rcases Option.map_eq_some_iff.mp read with ⟨⟨set, behind⟩, brackets, made⟩
    cases made
    rcases persists_bracketSet flags following brackets with ⟨left, bracketsEnded, further⟩
    exact ⟨_, congrArg (Option.map _) bracketsEnded, .unit _ further⟩
  case case6 | case7 | case8 => cases read; exact ⟨_, rfl, following.repetition flags _ _⟩
  case case9 =>
    rcases Option.map_eq_some_iff.mp read with ⟨⟨minimum, maximum, behind⟩, counted, made⟩
    cases made
    rcases following.bounds? flags counted with ⟨left, counts, further⟩
    exact ⟨_, congrArg (Option.map _) counts, (further.skip flags).repetition flags _ _⟩
  case case10 =>
    rcases Option.map_eq_some_iff.mp read with ⟨⟨escape, behind⟩, escaped, made⟩
    cases made
    rcases persists_escape flags following escaped with ⟨left, escapes, further⟩
    exact ⟨_, congrArg (Option.map _) escapes, .unit _ further⟩
  case case11 | case12 | case13 => cases read; exact ⟨_, rfl, .unit _ following⟩
  case case14 first text _ _ _ _ _ _ _ _ _ _ _ _ =>
    have plain (rest : List Char) : Regex.piece? flags (first :: rest) =
        some (.unit (.set (.single flags.ignoreCase first)) rest) := by
      rw [Regex.piece?] <;> assumption
    rw [plain] at read
    cases read
    exact ⟨_, plain others, .unit _ following⟩

/-! ## Alternatives -/

theorem alternatives?_ended {allowance further : Nat} (enough : allowance ≤ further)
    {progress reached : Progress} {finished : List Expression} {parts : List Part}
    {text ended rest : List Char} {expression : Expression} (relation : Ended text ended)
    (read : alternatives? allowance progress finished parts text =
      some (expression, reached, rest)) :
    ∃ others, alternatives? further progress finished parts ended =
      some (expression, reached, others) ∧ Ended rest others := by
  induction allowance generalizing further progress reached finished parts text ended rest
    expression with
  | zero => cases read
  | succ allowance induction =>
      cases further with
      | zero => cases enough
      | succ further =>
          replace enough := Nat.le_of_succ_le_succ enough
          rw [alternatives?_succ, Option.bind_eq_some_iff] at read
          rcases read with ⟨piece, stands, follows⟩
          rcases (relation.skip progress.flags).piece? stands with ⟨pieceEnded, standsEnded, same⟩
          rw [alternatives?_succ, standsEnded, Option.bind_some]
          cases same with
          | close relation =>
              cases follows
              exact ⟨_, rfl, relation⟩
          | bar relation => exact induction enough relation follows
          | unit body relation => exact induction enough relation follows
          | times minimum maximum greedy relation =>
              rw [follow?, Option.bind_eq_some_iff] at follows
              rcases follows with ⟨repeats, latest, follows⟩
              rw [follow?, latest, Option.bind_some]
              exact induction enough relation follows
          | opening relation =>
              rw [follow?, Option.bind_eq_some_iff] at follows
              rcases follows with ⟨⟨opening, counted, inside⟩, opens, follows⟩
              rcases relation.groupOpening? opens with ⟨insideEnded, opensEnded, relation⟩
              rw [follow?, opensEnded, Option.bind_some]
              cases opening with
              | flagsOnly inner => exact induction enough relation follows
              | group index inner =>
                  dsimp only at follows ⊢
                  rw [Option.bind_eq_some_iff] at follows
                  rcases follows with ⟨⟨body, reached, behind⟩, inner, follows⟩
                  rcases induction enough relation inner with ⟨behindEnded, innerEnded, relation⟩
                  rw [innerEnded, Option.bind_some]
                  dsimp only at follows ⊢
                  split at follows
                  next rest =>
                    rcases relation.of_cons with ⟨others, rfl, closed⟩
                    exact induction enough closed follows
                  next => cases follows

end Destructure.Regex
