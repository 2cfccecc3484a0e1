import Destructure.Proofs.Reading.Soundness
import Destructure.Proofs.Token.Tiling
import Destructure.Regex.Search

/-!
Where reading stops. A reader hands back what is behind the tokens that it took, and refuses one of
the tokens that it was given or what comes behind the last; so every error is at a place where a
token starts or at the end of the text.
-/

namespace Destructure

open Text

namespace Reading

variable {α Result Other : Type} {endPosition : Nat}

def Placed (endPosition : Nat) (tokens : List Token) (position : Nat) : Prop :=
  position = endPosition ∨ position ∈ tokens.map Token.position

def Stays (endPosition : Nat) (tokens : List Token) :
    Except ReadFailure (Result × List Token) → Prop
  | .ok answer => answer.2 <:+ tokens
  | .error failure => ∀ error, failure = .refused error → Placed endPosition tokens error.position

def Local (endPosition : Nat) (reader : Reader Result) : Prop :=
  ∀ tokens, Stays endPosition tokens (reader tokens)

theorem placed_of_suffix {tokens rest : List Token} (within : rest <:+ tokens) {position : Nat}
    (placed : Placed endPosition rest position) : Placed endPosition tokens position :=
  placed.imp_right fun member => List.map_subset _ within.subset member

theorem exists_refused (endPosition : Nat) (expectation : Expectation) (tokens : List Token) :
    ∃ error, (refuse endPosition expectation tokens : Except ReadFailure Result) =
      .error (.refused error) ∧ Placed endPosition tokens error.position := by
  cases tokens with
  | nil => exact ⟨_, rfl, .inl rfl⟩
  | cons token rest => exact ⟨_, rfl, .inr List.mem_cons_self⟩

namespace Stays

variable {tokens rest : List Token} {outcome : Except ReadFailure (Result × List Token)}

theorem refused {error : ReadError} (placed : Placed endPosition tokens error.position) :
    Stays endPosition tokens
      (.error (.refused error) : Except ReadFailure (Result × List Token)) := by
  rintro _ ⟨⟩
  exact placed

theorem refuse (expectation : Expectation) (tokens : List Token) :
    Stays endPosition tokens
      (Reading.refuse endPosition expectation tokens :
        Except ReadFailure (Result × List Token)) := by
  rcases exists_refused endPosition expectation tokens with ⟨error, refused, placed⟩
  rw [refused]
  exact .refused placed

theorem widen (stays : Stays endPosition rest outcome) (within : rest <:+ tokens) :
    Stays endPosition tokens outcome := by
  cases outcome with
  | ok answer => exact List.IsSuffix.trans stays within
  | error failure => exact fun error equal => placed_of_suffix within (stays error equal)

/-- Whatever goes on with the rest stays among the tokens too. -/
theorem bind (stays : Stays endPosition tokens outcome)
    {next : Result × List Token → Except ReadFailure (Other × List Token)}
    (goesOn : ∀ answer, Stays endPosition answer.2 (next answer)) :
    Stays endPosition tokens (outcome >>= next) := by
  cases outcome with
  | error failure => exact stays
  | ok answer => exact (goesOn answer).widen stays

theorem behind (lexeme : Lexeme) {tokens : List Token}
    {next : List Token → Except ReadFailure (Result × List Token)}
    (goesOn : ∀ rest, Stays endPosition rest (next rest)) :
    Stays endPosition tokens (Reading.behind endPosition lexeme tokens >>= next) := by
  cases tokens with
  | nil => exact .refused (.inl rfl)
  | cons token rest =>
      rw [Reading.behind]
      split
      case isTrue => exact (goesOn rest).widen (List.suffix_cons _ _)
      case isFalse => exact .refused (.inr List.mem_cons_self)

theorem cons (stays : Stays endPosition rest outcome) (token : Token) :
    Stays endPosition (token :: rest) outcome :=
  stays.widen (List.suffix_cons _ _)

end Stays

/-! ## Rows -/

theorem local_listUpTo {item : Reader Result} (stays : Local endPosition item) (bracket : Bracket)
    (allowance : Nat) : Local endPosition (listUpTo endPosition bracket item allowance) := by
  induction allowance with
  | zero => exact fun tokens _ equal => by cases equal
  | succ allowance induction =>
      intro tokens
      rw [listUpTo_succ]
      split
      case isTrue => exact List.tail_suffix tokens
      case isFalse =>
        refine (stays tokens).bind fun first => ?_
        split
        case isTrue =>
          refine ((induction first.2.tail).bind fun others => ?_).widen
            (List.tail_suffix _)
          exact List.suffix_refl _
        case isFalse => exact .behind _ fun rest => List.suffix_refl _

theorem local_operands {operand : Reader Result} (stays : Local endPosition operand)
    (separator : Lexeme) (allowance : Nat) :
    Local endPosition (operands separator operand allowance) := by
  induction allowance with
  | zero => exact fun tokens _ equal => by cases equal
  | succ allowance induction =>
      intro tokens
      rw [operands_succ]
      refine (stays tokens).bind fun first => ?_
      split
      case isTrue =>
        refine ((induction first.2.tail).bind fun others => ?_).widen
          (List.tail_suffix _)
        exact List.suffix_refl _
      case isFalse => exact List.suffix_refl _

/-! ## Values -/

theorem local_mapEntry {value : Reader (Value α)} (stays : Local endPosition value) :
    Local endPosition (mapEntry endPosition value) := by
  intro tokens
  refine (stays tokens).bind fun _ => .behind _ fun rest => (stays rest).bind fun _ => ?_
  exact List.suffix_refl _

theorem local_recordField {value : Reader (Value α)} (stays : Local endPosition value) :
    Local endPosition (recordField endPosition value) := by
  intro tokens
  unfold recordField
  split
  case h_1 =>
    refine .cons (.behind _ fun rest => (stays rest).bind fun _ => ?_) _
    exact List.suffix_refl _
  case h_2 => exact .refuse _ _

theorem local_value [BEq α] (endPosition allowance : Nat) :
    Local endPosition (value endPosition allowance : Reader (Value α)) := by
  induction allowance with
  | zero => exact fun tokens _ equal => by cases equal
  | succ allowance induction =>
      intro tokens
      unfold value
      split
      case h_5 =>
        refine .cons ((local_listUpTo induction _ _ _).bind fun _ => ?_) _
        exact List.suffix_refl _
      case h_6 =>
        refine .cons ((local_listUpTo (local_mapEntry induction) _ _ _).bind fun _ => ?_) _
        exact List.suffix_refl _
      case h_10 =>
        refine .cons (.cons ((local_listUpTo (local_recordField induction) _ _ _).bind
          fun _ => ?_) _) _
        exact List.suffix_refl _
      case h_11 => exact .refuse _ _
      all_goals exact List.suffix_cons _ _

/-! ## Patterns -/

section Patterns

variable [BEq α] {allowance : Nat} {reader : Reader (Pattern α)}

theorem local_keyedEntry (stays : Local endPosition reader) :
    Local endPosition (keyedEntry endPosition allowance reader) := by
  intro tokens
  have keys : Local endPosition (value endPosition allowance : Reader (Value α)) :=
    local_value endPosition allowance
  have full : Stays endPosition tokens (value endPosition allowance tokens >>=
      fun key : Value α × List Token => behind endPosition .arrow key.2 >>= fun rest =>
        reader rest >>= fun content => .ok ((key.1, content.1), content.2)) := by
    refine (keys tokens).bind fun _ => .behind _ fun rest => (stays rest).bind fun _ => ?_
    exact List.suffix_refl _
  unfold keyedEntry
  dsimp only
  split
  case h_1 =>
    split
    case isTrue => exact List.suffix_cons _ _
    case isFalse => exact full
  case h_2 => exact full

omit [BEq α] in
theorem local_keyedField (stays : Local endPosition reader) :
    Local endPosition (keyedField endPosition reader) := by
  intro tokens
  unfold keyedField
  split
  case h_1 => exact List.suffix_cons _ _
  case h_2 =>
    refine .cons (.behind _ fun rest => (stays rest).bind fun _ => ?_) _
    exact List.suffix_refl _
  case h_3 => exact .refuse _ _

theorem local_primary [Regex.Engine] (stays : Local endPosition reader) :
    Local endPosition (primary endPosition allowance reader) := by
  have items : ∀ bracket, Local endPosition
      (listUpTo endPosition bracket reader (allowance + 1)) := fun bracket =>
    local_listUpTo stays bracket _
  intro tokens
  unfold primary
  dsimp only
  split
  case h_1 =>
    refine .cons ((items _ _).bind fun _ => ?_) _
    exact List.suffix_refl _
  case h_2 =>
    refine .cons ((local_listUpTo (local_keyedEntry stays) _ _ _).bind fun _ => ?_) _
    exact List.suffix_refl _
  case h_3 =>
    refine .cons ((stays _).bind fun _ => .behind _ fun rest => ?_) _
    exact List.suffix_refl _
  case h_4 => exact List.suffix_cons _ _
  case h_5 =>
    split
    case h_1 => exact fun _ equal => by cases equal
    case h_2 =>
      split
      case h_1 =>
        refine .cons (.cons ((items _ _).bind fun _ => ?_) _) _
        exact List.suffix_refl _
      case h_2 => exact List.suffix_cons _ _
  case h_6 =>
    refine .cons (.cons ((items _ _).bind fun _ => ?_) _) _
    exact List.suffix_refl _
  case h_7 =>
    refine .cons (.cons ((local_listUpTo (local_keyedField stays) _ _ _).bind fun _ => ?_) _) _
    exact List.suffix_refl _
  case h_8 =>
    split
    case h_1 => exact List.suffix_cons _ _
    case h_2 => exact .cons (.refuse _ _) _
  case h_9 =>
    split
    case h_1 => exact List.suffix_cons _ _
    case h_2 => exact .refuse _ _
  case h_10 => exact .refuse _ _

omit [BEq α] in
theorem local_negated (stays : Local endPosition reader) :
    Local endPosition (negated reader) := by
  intro tokens
  induction tokens with
  | nil => exact stays []
  | cons token rest induction =>
      unfold negated
      split
      case h_1 equal =>
        cases equal
        refine .cons (induction.bind fun _ => ?_) _
        exact List.suffix_refl _
      case h_2 => exact stays _

omit [BEq α] in
theorem local_conjunction (stays : Local endPosition reader) :
    Local endPosition (conjunction allowance reader) := by
  intro tokens
  refine (local_operands stays _ _ tokens).bind fun _ => ?_
  exact List.suffix_refl _

end Patterns

theorem local_pattern [Regex.Engine] [BEq α] (endPosition allowance : Nat) :
    Local endPosition (pattern endPosition allowance : Reader (Pattern α)) := by
  induction allowance with
  | zero => exact fun tokens _ equal => by cases equal
  | succ allowance induction =>
      have conjunctions : Local endPosition (conjunction allowance (negated
          (primary endPosition allowance (pattern endPosition allowance : Reader (Pattern α))))) :=
        local_conjunction (local_negated (local_primary induction))
      intro tokens
      refine (local_operands conjunctions _ _ tokens).bind fun _ => ?_
      exact List.suffix_refl _

/-! ## Texts -/

theorem boundary_of_readAll {expression : (endPosition allowance : Nat) → Reader Result}
    (stays : ∀ endPosition allowance, Local endPosition (expression endPosition allowance))
    {source : String} {error : ReadError}
    (failed : readAll expression source = .error (.refused error)) :
    IsBoundary source.toList error.position := by
  rw [readAll] at failed
  split at failed
  next inner scanned =>
    cases failed
    exact Token.boundary_of_scan scanned
  next tokens scanned =>
    have placed : Placed (byteLength source.toList) tokens error.position := by
      have here := stays (byteLength source.toList) (tokens.length + 1) tokens
      unfold readWhole at failed
      split at failed
      next equal =>
        cases failed
        rw [equal] at here
        exact here error rfl
      next => cases failed
      next result rest _ equal =>
        rw [equal] at here
        rcases @exists_refused Result (byteLength source.toList) .endOfInput rest with
          ⟨other, refused, placed⟩
        rw [refused] at failed
        cases failed
        exact placed_of_suffix here placed
    rcases placed with atEnd | member
    · rw [atEnd]
      exact isBoundary_length _
    · rcases List.mem_map.mp member with ⟨token, among, atToken⟩
      rcases Token.exists_tiles_of_scan scanned with ⟨layout, tiles, tiled, -⟩
      rw [← atToken]
      exact tiled.offsets.2.2 token among

/-- The tokens of a text tile it, and how much layout there is between them does not matter. Where
the text cannot be scanned or is no pattern or value, the error is at the start of a character or at
the end of the text. -/
theorem tokens_tile_text [Regex.Engine] [BEq α] (source : String) :
    (∀ tokens, Token.scan source.toList = .ok tokens →
      ∃ layout tiles, Token.Tiles source.toList layout tiles tokens ∧
        (∀ (place : Nat) (tile : Token.Tile), tiles[place]? = some tile →
          tokens[place]? = some (Token.mk tile.lexeme
            (byteLength (Token.Tile.textOf layout (tiles.take place))))) ∧
        (tokens.Pairwise fun first second => first.position < second.position) ∧
        (∀ token ∈ tokens, IsBoundary source.toList token.position) ∧
        ∀ layoutToo tilesToo, IsLayout layoutToo → Token.SameSpellings tiles tilesToo →
          Token.Tile.Apart tilesToo →
          Token.scan (Token.Tile.textOf layoutToo tilesToo) =
            .ok (Token.Tile.tokensAt (byteLength layoutToo) tilesToo)) ∧
    ∀ error, (Token.scan source.toList = .error error ∨
        (Pattern.parse source : Except ReadFailure (Pattern α)) = .error (.refused error) ∨
        (Value.parse source : Except ReadFailure (Value α)) = .error (.refused error)) →
      IsBoundary source.toList error.position ∧
        error.position ≤ byteLength source.toList := by
  constructor
  · intro tokens scanned
    rcases Token.exists_tiles_of_scan scanned with ⟨layout, tiles, tiled, again⟩
    rcases tiled.offsets with ⟨found, increasing, boundaries⟩
    exact ⟨layout, tiles, tiled, found, increasing, boundaries, again⟩
  · intro error failed
    have boundary : IsBoundary source.toList error.position := by
      rcases failed with scanned | pattern | value
      · exact Token.boundary_of_scan scanned
      · exact boundary_of_readAll local_pattern pattern
      · exact boundary_of_readAll local_value value
    exact ⟨boundary, boundary.le⟩

section BuiltIn

attribute [local instance] Regex.Engine.builtIn

/-- The arrow is refused where it stands, behind a letter of two bytes. -/
theorem arrow_refused_at_boundary :
    (Value.parse "[\"é\" =>" : Except ReadFailure (Value Empty)) =
      .error (.refused ⟨6, .expected (.lexeme (.closing .square)) (some .arrow)⟩) ∧
    IsBoundary "[\"é\" =>".toList 6 := by
  have refused : (Value.parse "[\"é\" =>" : Except ReadFailure (Value Empty)) =
      .error (.refused ⟨6, .expected (.lexeme (.closing .square)) (some .arrow)⟩) := rfl
  exact ⟨refused, ((tokens_tile_text "[\"é\" =>").2 _ (.inr (.inr refused))).1⟩

end BuiltIn

end Reading

end Destructure
