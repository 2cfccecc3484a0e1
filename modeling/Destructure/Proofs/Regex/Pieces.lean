import Destructure.Proofs.Regex.Matches
import Destructure.Regex.Reader

/-!
Reading the alternatives of a regular expression and the sets in it piece by piece. What stands at
the front of the source decides alone what is done next, so a property of readings follows from
what it says of one piece.

Main statements: `setBody?_succ`, `alternatives?_succ`, and `Expression.wellFormed_of_read?`.
-/

namespace Destructure.Regex

/-! ## Pieces of a set in brackets -/

inductive SetPiece where
  | close (rest : List Char)
  /-- The bracket that opens a set inside. -/
  | opening (rest : List Char)
  | operator (operator : SetOperator) (rest : List Char)
  | item (set : CharacterSet) (rest : List Char)

def setPiece? (flags : Flags) : List Char → Option SetPiece
  | [] => none
  | ']' :: rest => some (.close rest)
  | '[' :: rest =>
    match namedSet? flags rest with
    | some found => some (.item found.1 found.2)
    | none => some (.opening rest)
  | '&' :: '&' :: rest => some (.operator .intersection rest)
  | '-' :: '-' :: rest => some (.operator .difference rest)
  | '~' :: '~' :: rest => some (.operator .symmetricDifference rest)
  | text => (setRange? flags text).map fun found => .item found.1 found.2

def followSet? (flags : Flags) (allowance : Nat) (negated : Bool) (pending : PendingOperator)
    (items : List CharacterSet) : SetPiece → Option (CharacterSet × List Char)
  | .close rest => some (.bracket negated (pending.apply items), rest)
  | .opening rest =>
    (setBody? flags allowance (setOpening flags rest).1 none (setOpening flags rest).2.1
      (setOpening flags rest).2.2).bind fun found =>
        setBody? flags allowance negated pending (found.1 :: items) found.2
  | .operator operator rest =>
    setBody? flags allowance negated (some (operator, pending.apply items)) [] rest
  | .item set rest => setBody? flags allowance negated pending (set :: items) rest

theorem setBody?_succ (flags : Flags) (allowance : Nat) (negated : Bool)
    (pending : PendingOperator) (items : List CharacterSet) (text : List Char) :
    setBody? flags (allowance + 1) negated pending items text =
      (setPiece? flags (skip flags text)).bind
        (followSet? flags allowance negated pending items) := by
  rw [setBody?]
  generalize skip flags text = text
  unfold setPiece?
  split
  case h_3 rest =>
    simp only
    cases namedSet? flags rest with
    | some found => rfl
    | none =>
        dsimp only [Option.bind_some, followSet?]
        cases setBody? flags allowance (setOpening flags rest).1 none (setOpening flags rest).2.1
          (setOpening flags rest).2.2 <;> rfl
  case h_7 =>
    simp only [Option.bind_map]
    cases setRange? flags text <;> rfl
  all_goals rfl

/-! ## Pieces of an expression -/

inductive Piece where
  /-- The end of the source or of the group around; that of the group is left for it. -/
  | close (rest : List Char)
  | bar (rest : List Char)
  /-- The bracket that opens a group. -/
  | opening (rest : List Char)
  | unit (expression : Expression) (rest : List Char)
  /-- A repetition of what stands before it. -/
  | times (minimum : Nat) (maximum : Option Nat) (greedy : Bool) (rest : List Char)

def Piece.repetition (flags : Flags) (minimum : Nat) (maximum : Option Nat) (text : List Char) :
    Piece :=
  .times minimum maximum (greediness flags text).1 (greediness flags text).2

def Escape.toExpression (flags : Flags) : Escape → Expression
  | literal character => .set (.single flags.ignoreCase character)
  | set characters => .set characters
  | anchor condition => .anchor condition

def piece? (flags : Flags) : List Char → Option Piece
  | [] => some (.close [])
  | ')' :: rest => some (.close (')' :: rest))
  | '|' :: rest => some (.bar rest)
  | '(' :: rest => some (.opening rest)
  | '[' :: rest => (bracketSet? flags rest).map fun found => .unit (.set found.1) found.2
  | '?' :: rest => some (.repetition flags 0 (some 1) rest)
  | '*' :: rest => some (.repetition flags 0 none rest)
  | '+' :: rest => some (.repetition flags 1 none rest)
  | '\x7b' :: rest =>
    (bounds? flags rest).map fun found =>
      .repetition flags found.1 found.2.1 (skip flags found.2.2)
  | '\\' :: rest =>
    (escape? flags rest).map fun found => .unit (found.1.toExpression flags) found.2
  | '.' :: rest => some (.unit (.set flags.pointSet) rest)
  | '^' :: rest =>
    some (.unit (.anchor (if flags.lines then .lineStart flags.carriageReturns else .textStart))
      rest)
  | '$' :: rest =>
    some (.unit (.anchor (if flags.lines then .lineEnd flags.carriageReturns else .textEnd)) rest)
  | character :: rest => some (.unit (.set (.single flags.ignoreCase character)) rest)

def follow? (allowance : Nat) (progress : Progress) (finished : List Expression)
    (parts : List Part) : Piece → Option (Expression × Progress × List Char)
  | .close rest =>
    some (Expression.amongAlternatives (row parts :: finished).reverse, progress, rest)
  | .bar rest => alternatives? allowance progress (row parts :: finished) [] rest
  | .unit expression rest =>
    alternatives? allowance progress finished (.expression expression :: parts) rest
  | .times minimum maximum greedy rest =>
    (repeatLatest? minimum maximum greedy parts).bind fun parts =>
      alternatives? allowance progress finished parts rest
  | .opening rest =>
    (groupOpening? progress rest).bind fun found =>
      match found.1 with
      | .flagsOnly inner =>
        alternatives? allowance { progress with flags := inner } finished (.flags :: parts)
          found.2.2
      | .group index inner =>
        (alternatives? allowance { found.2.1 with flags := inner } [] [] found.2.2).bind fun body =>
          match body.2.2 with
          | ')' :: rest =>
            alternatives? allowance { body.2.1 with flags := progress.flags } finished
              (.expression (.group index body.1) :: parts) rest
          | _ => none

theorem alternatives?_succ (allowance : Nat) (progress : Progress) (finished : List Expression)
    (parts : List Part) (text : List Char) :
    alternatives? (allowance + 1) progress finished parts text =
      (piece? progress.flags (skip progress.flags text)).bind
        (follow? allowance progress finished parts) := by
  rw [alternatives?]
  dsimp only
  generalize skip progress.flags text = text
  unfold piece?
  split
  case h_5 => simp only [Option.bind_map]; rfl
  case h_9 => simp only [Option.bind_map]; rfl
  case h_10 rest =>
    simp only [Option.bind_map]
    congr 1
    funext found
    rcases found with ⟨escape, behind⟩
    cases escape <;> rfl
  case h_14 => simp [follow?]
  all_goals rfl

inductive GroupMark where
  /-- The mark of a condition on what stands around a match. -/
  | lookaround
  | name (rest : List Char)
  | flags (rest : List Char)
  | plain (rest : List Char)

def groupMark : List Char → GroupMark
  | '?' :: '=' :: _ | '?' :: '!' :: _ | '?' :: '<' :: '=' :: _ | '?' :: '<' :: '!' :: _ =>
    .lookaround
  | '?' :: 'P' :: '<' :: rest => .name rest
  | '?' :: '<' :: rest => .name rest
  | '?' :: rest => .flags rest
  | rest => .plain rest

def openGroup? (progress : Progress) : GroupMark → Option (GroupOpening × Progress × List Char)
  | .lookaround => none
  | .name text =>
    (groupName? text).bind fun found =>
      if progress.names.contains found.1 then none
      else
        some (.group (some (progress.groups + 1)) progress.flags,
          ⟨progress.flags, progress.groups + 1, found.1 :: progress.names⟩, found.2)
  | .flags text =>
    (flags? progress.flags [] text).bind fun found =>
      if found.2.2.1 == ')' then
        if found.2.1.isEmpty then none else some (.flagsOnly found.1, progress, found.2.2.2)
      else some (.group none found.1, progress, found.2.2.2)
  | .plain rest =>
    some (.group (some (progress.groups + 1)) progress.flags,
      { progress with groups := progress.groups + 1 }, rest)

theorem groupOpening?_eq (progress : Progress) (text : List Char) :
    groupOpening? progress text = openGroup? progress (groupMark (skip progress.flags text)) := by
  unfold groupOpening?
  dsimp only
  generalize skip progress.flags text = text
  unfold groupMark
  split
  all_goals simp [openGroup?]

/-! ## Expressions that are read -/

namespace Expression

theorem wellFormed_inSequence {parts : List Expression}
    (wellFormed : ∀ part ∈ parts, part.WellFormed) : (inSequence parts).WellFormed := by
  match parts with
  | [] => exact .empty
  | [part] => exact wellFormed part List.mem_cons_self
  | first :: second :: others => exact .sequence wellFormed

theorem wellFormed_amongAlternatives {alternatives : List Expression} (filled : alternatives ≠ [])
    (wellFormed : ∀ alternative ∈ alternatives, alternative.WellFormed) :
    (amongAlternatives alternatives).WellFormed := by
  match alternatives with
  | [] => exact absurd rfl filled
  | [alternative] => exact wellFormed alternative List.mem_cons_self
  | first :: second :: others => exact .choice filled wellFormed

theorem wellFormed_row {parts : List Part}
    (wellFormed : ∀ part ∈ parts, part.toExpression.WellFormed) : (row parts).WellFormed :=
  wellFormed_inSequence (List.forall_mem_map.mpr fun part member =>
    wellFormed part (List.mem_reverse.mp member))

end Expression

/-- The expression of a piece is a set or a condition. -/
theorem wellFormed_of_piece? {flags : Flags} {text rest : List Char} {expression : Expression}
    (found : piece? flags text = some (.unit expression rest)) : expression.WellFormed := by
  unfold piece? at found
  split at found
  case h_5 =>
    rw [Option.map_eq_some_iff] at found
    rcases found with ⟨set, _, made⟩
    cases made
    exact .set _
  case h_9 =>
    rw [Option.map_eq_some_iff] at found
    rcases found with ⟨bounds, _, made⟩
    cases made
  case h_10 =>
    rw [Option.map_eq_some_iff] at found
    rcases found with ⟨⟨escape, _⟩, _, made⟩
    cases made
    cases escape <;> constructor
  all_goals cases found <;> constructor

theorem limited_of_bounds? {flags : Flags} {text rest : List Char} {minimum : Nat}
    {maximum : Option Nat} (found : bounds? flags text = some (minimum, maximum, rest)) :
    ∀ most ∈ maximum, minimum ≤ most := by
  unfold bounds? at found
  obtain ⟨⟨least, behind⟩, -, found⟩ := Option.bind_eq_some_iff.mp found
  dsimp only at found
  split at found
  next =>
    cases found
    exact fun most member => Nat.le_of_eq (Option.some.inj member)
  next =>
    split at found
    next =>
      cases found
      intro most member
      cases member
    next =>
      obtain ⟨⟨most, behind⟩, -, found⟩ := Option.bind_eq_some_iff.mp found
      dsimp only at found
      split at found
      next =>
        split at found
        next ordered =>
          cases found
          exact fun bound member => Option.some.inj member ▸ ordered
        next => cases found
      next => cases found
  next => cases found

theorem limited_of_piece? {flags : Flags} {text rest : List Char} {minimum : Nat}
    {maximum : Option Nat} {greedy : Bool}
    (found : piece? flags text = some (.times minimum maximum greedy rest)) :
    ∀ most ∈ maximum, minimum ≤ most := by
  unfold piece? at found
  split at found
  case h_5 | h_10 =>
    rw [Option.map_eq_some_iff] at found
    rcases found with ⟨_, _, made⟩
    cases made
  case h_9 =>
    rw [Option.map_eq_some_iff] at found
    rcases found with ⟨⟨least, most, _⟩, bounds, made⟩
    cases made
    exact limited_of_bounds? bounds
  all_goals cases found <;> simp

theorem wellFormed_of_repeatLatest? {minimum : Nat} {maximum : Option Nat} {greedy : Bool}
    {parts repeats : List Part} (limited : ∀ most ∈ maximum, minimum ≤ most)
    (wellFormed : ∀ part ∈ parts, part.toExpression.WellFormed)
    (found : repeatLatest? minimum maximum greedy parts = some repeats) :
    ∀ part ∈ repeats, part.toExpression.WellFormed := by
  unfold repeatLatest? at found
  split at found
  next body others =>
    cases found
    rw [List.forall_mem_cons] at wellFormed ⊢
    exact ⟨.repeated greedy limited wellFormed.1, wellFormed.2⟩
  next => cases found

theorem index_ne_zero_of_groupOpening? {progress counted : Progress} {index : Option Nat}
    {inner : Flags} {text rest : List Char}
    (found : groupOpening? progress text = some (.group index inner, counted, rest)) :
    index ≠ some 0 := by
  rw [groupOpening?_eq] at found
  generalize groupMark (skip progress.flags text) = mark at found
  cases mark with
  | lookaround => cases found
  | name rest =>
      rw [openGroup?, Option.bind_eq_some_iff] at found
      rcases found with ⟨⟨name, rest⟩, _, made⟩
      split at made
      · cases made
      · cases made
        exact fun zero => by cases zero
  | flags rest =>
      rw [openGroup?, Option.bind_eq_some_iff] at found
      rcases found with ⟨⟨flags, seen, last, rest⟩, _, made⟩
      split at made
      · split at made <;> cases made
      · cases made
        exact fun zero => by cases zero
  | plain rest =>
      cases found
      exact fun zero => by cases zero

theorem wellFormed_of_alternatives? {allowance : Nat} {progress reached : Progress}
    {finished : List Expression} {parts : List Part} {text rest : List Char}
    {expression : Expression} (before : ∀ alternative ∈ finished, alternative.WellFormed)
    (wellFormed : ∀ part ∈ parts, part.toExpression.WellFormed)
    (found : alternatives? allowance progress finished parts text =
      some (expression, reached, rest)) : expression.WellFormed := by
  induction allowance generalizing progress reached finished parts text rest expression with
  | zero => cases found
  | succ allowance induction =>
      rw [alternatives?_succ, Option.bind_eq_some_iff] at found
      rcases found with ⟨piece, stands, follows⟩
      have finishes : ∀ alternative ∈ row parts :: finished, alternative.WellFormed :=
        List.forall_mem_cons.mpr ⟨Expression.wellFormed_row wellFormed, before⟩
      cases piece with
      | close rest =>
          cases follows
          exact Expression.wellFormed_amongAlternatives (by simp) fun alternative member =>
            finishes alternative (List.mem_reverse.mp member)
      | bar rest => exact induction finishes (List.forall_mem_nil _) follows
      | unit body rest =>
          exact induction before
            (List.forall_mem_cons.mpr ⟨wellFormed_of_piece? stands, wellFormed⟩) follows
      | times minimum maximum greedy rest =>
          rw [follow?, Option.bind_eq_some_iff] at follows
          rcases follows with ⟨repeats, latest, follows⟩
          exact induction before
            (wellFormed_of_repeatLatest? (limited_of_piece? stands) wellFormed latest) follows
      | opening rest =>
          rw [follow?, Option.bind_eq_some_iff] at follows
          rcases follows with ⟨⟨opening, opened, inside⟩, opens, follows⟩
          cases opening with
          | flagsOnly inner =>
              exact induction before (List.forall_mem_cons.mpr
                ⟨show Part.flags.toExpression.WellFormed from .empty, wellFormed⟩) follows
          | group index inner =>
              dsimp only at follows
              rw [Option.bind_eq_some_iff] at follows
              rcases follows with ⟨⟨body, reached, behind⟩, inner, follows⟩
              have bodyWellFormed : body.WellFormed := induction (List.forall_mem_nil _)
                (List.forall_mem_nil _) inner
              have grouped : (Part.expression (.group index body)).toExpression.WellFormed :=
                .group (index_ne_zero_of_groupOpening? opens) bodyWellFormed
              dsimp only at follows
              split at follows
              · exact induction before (List.forall_mem_cons.mpr ⟨grouped, wellFormed⟩) follows
              · cases follows

theorem Expression.wellFormed_of_read? {source : List Char} {expression : Expression}
    (found : read? source = some expression) : expression.WellFormed := by
  unfold read? at found
  split at found
  next read =>
    split at found
    · cases found
      exact wellFormed_of_alternatives? (List.forall_mem_nil _) (List.forall_mem_nil _) read
    · cases found
  next => cases found

end Destructure.Regex
