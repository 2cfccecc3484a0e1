import Destructure.Proofs.Token.Lexicon

/-!
Tokens tile the text that they are scanned from. Between the spellings of two of them there is
nothing but layout, and each knows the offset of its own spelling. How much layout there is does not
matter, as long as there is some between two tokens.
-/

namespace Destructure

open Text

namespace Text

/-! ## Offsets -/

theorem byteLength_append (text others : List Char) :
    byteLength (text ++ others) = byteLength text + byteLength others := by
  induction text with
  | nil => exact (Nat.zero_add _).symm
  | cons character text induction =>
      rw [List.cons_append, byteLength, byteLength, induction, Nat.add_assoc]

theorem byteLength_pos {text : List Char} (some : text ≠ []) : 0 < byteLength text := by
  cases text with
  | nil => exact absurd rfl some
  | cons character rest => exact Nat.add_pos_left character.utf8Size_pos _

def IsBoundary (text : List Char) (position : Nat) : Prop :=
  ∃ before behind, text = before ++ behind ∧ position = byteLength before

theorem isBoundary_length (text : List Char) : IsBoundary text (byteLength text) :=
  ⟨text, [], (List.append_nil text).symm, rfl⟩

theorem IsBoundary.le {text : List Char} {position : Nat} (boundary : IsBoundary text position) :
    position ≤ byteLength text := by
  rcases boundary with ⟨before, behind, rfl, rfl⟩
  rw [byteLength_append]
  exact Nat.le_add_right _ _

/-! ## Layout -/

def IsLayout (text : List Char) : Prop := ∀ character ∈ text, isBlank character

/-- Layout does not go on as a name or as a number. -/
theorem stops_blank {first : Char} (blank : isBlank first) (rest : List Char) :
    Stops (first :: rest) := by
  have stops : continuesName first = false ∧ first ≠ '.' ∧ first ≠ '?' :=
    Lexeme.of_isBlank (fun character => continuesName character = false ∧ character ≠ '.' ∧
      character ≠ '?') (by decide +kernel) blank
  exact stops_cons stops.1 stops.2.1 stops.2.2 rest

theorem IsLayout.stops {layout : List Char} (blank : IsLayout layout) {rest : List Char}
    (gap : layout = [] → rest = []) : Stops (layout ++ rest) := by
  cases layout with
  | nil =>
      rw [gap rfl]
      exact stops_nil
  | cons first others => exact stops_blank (blank first List.mem_cons_self) _

end Text

/-- A spelling starts with something, and not with layout. -/
theorem Lexeme.not_blank_of_spelling {spelling : List Char} {lexeme : Lexeme}
    (spells : Spelling spelling lexeme) :
    spelling ≠ [] ∧ ∀ rest, Ends isBlank (spelling ++ rest) := by
  have read : Lexeme.read false (spelling ++ []) = .ok ⟨lexeme, spelling, []⟩ :=
    read_spelling spells (fun _ _ => rfl) stops_nil
  cases spelling with
  | nil => cases read
  | cons first others =>
      refine ⟨List.cons_ne_nil _ _, fun rest next member => ?_⟩
      cases member
      exact Bool.eq_false_iff.mpr fun blank => not_read_blank blank _ read

namespace Token

/-! ## Tiles -/

structure Tile where
  lexeme : Lexeme
  spelling : List Char
  layout : List Char

namespace Tile

def text (tile : Tile) : List Char := tile.spelling ++ tile.layout

def textOf (layout : List Char) (tiles : List Tile) : List Char := layout ++ tiles.flatMap text

def tokensAt (position : Nat) : List Tile → List Token
  | [] => []
  | tile :: tiles => ⟨tile.lexeme, position⟩ :: tokensAt (position + byteLength tile.text) tiles

structure Laid (tile : Tile) : Prop where
  spells : Lexeme.Spelling tile.spelling tile.lexeme
  blank : IsLayout tile.layout

def FitRow : (afterName : Bool) → List Lexeme → Prop
  | _, [] => True
  | afterName, lexeme :: lexemes => lexeme.Fits afterName ∧ FitRow lexeme.isName lexemes

def Apart : List Tile → Prop
  | [] | [_] => True
  | tile :: tiles => tile.layout ≠ [] ∧ Apart tiles

theorem textOf_cons (layout : List Char) (tile : Tile) (tiles : List Tile) :
    textOf layout (tile :: tiles) =
      layout ++ (tile.spelling ++ textOf tile.layout tiles) := by
  rw [textOf, List.flatMap_cons, text, textOf, List.append_assoc]

end Tile

open Tile

/-! ## Scanning finds tiles -/

theorem scanFrom_eq_read {allowance position : Nat} {afterName : Bool} {layout rest : List Char}
    (blank : IsLayout layout) (some : rest ≠ []) (ends : Ends isBlank rest) :
    scanFrom (allowance + 1) position afterName (layout ++ rest) =
      match Lexeme.read afterName rest with
      | .error complaint => .error ⟨position + byteLength layout, complaint⟩
      | .ok spelled =>
        match scanFrom allowance (position + byteLength layout + byteLength spelled.spelling)
            spelled.lexeme.isName spelled.rest with
        | .error error => .error error
        | .ok tokens => .ok (⟨spelled.lexeme, position + byteLength layout⟩ :: tokens) := by
  have visible : rest.dropWhile isBlank = rest := by
    cases rest with
    | nil => rfl
    | cons first others =>
        exact List.dropWhile_cons_of_neg (Bool.eq_false_iff.mp (ends first rfl))
  rw [scanFrom, takeWhile_run blank ends, List.dropWhile_append_of_pos blank, visible]
  cases rest with
  | nil => exact absurd rfl some
  | cons first others => rfl

theorem scanFrom_layout (allowance position : Nat) (afterName : Bool) {layout : List Char}
    (blank : IsLayout layout) : scanFrom (allowance + 1) position afterName layout = .ok [] := by
  have gone : (layout ++ []).dropWhile isBlank = [] := List.dropWhile_append_of_pos blank
  rw [List.append_nil] at gone
  rw [scanFrom, gone]

/-- The tokens of a text are those of tiles that it is made of. -/
theorem exists_tiles {allowance position : Nat} {afterName : Bool} {text : List Char}
    {tokens : List Token} (enough : text.length < allowance)
    (scanned : scanFrom allowance position afterName text = .ok tokens) :
    ∃ layout tiles, text = textOf layout tiles ∧ IsLayout layout ∧ (∀ tile ∈ tiles, tile.Laid) ∧
      FitRow afterName (tiles.map Tile.lexeme) ∧
      tokens = tokensAt (position + byteLength layout) tiles := by
  induction allowance generalizing position afterName text tokens with
  | zero => exact absurd enough (Nat.not_lt_zero _)
  | succ allowance induction =>
      rcases Lexeme.exists_run isBlank text with ⟨layout, rest, rfl, blank, ends⟩
      by_cases none : rest = []
      · subst none
        rw [List.append_nil, scanFrom_layout allowance position afterName blank] at scanned
        cases scanned
        exact ⟨layout, [], rfl, blank, List.forall_mem_nil _, trivial, rfl⟩
      · rw [scanFrom_eq_read blank none ends] at scanned
        split at scanned
        next => cases scanned
        next spelled read =>
          have sound := Lexeme.sound_read read
          have some := (Lexeme.not_blank_of_spelling sound.spells).1
          split at scanned
          next => cases scanned
          next others later =>
            cases scanned
            have shorter : spelled.rest.length < allowance := by
              have lengths := congrArg List.length sound.split
              have positive := List.length_pos_iff.mpr some
              simp only [List.length_append] at enough lengths
              omega
            rcases induction shorter later with
              ⟨behind, tiles, split, blankBehind, laid, fits, rfl⟩
            refine ⟨layout, ⟨spelled.lexeme, spelled.spelling, behind⟩ :: tiles, ?_, blank,
              List.forall_mem_cons.mpr ⟨⟨sound.spells, blankBehind⟩, laid⟩, ⟨sound.fits, fits⟩, ?_⟩
            · rw [textOf_cons, ← split, ← sound.split]
            · rw [tokensAt, text, byteLength_append, ← Nat.add_assoc]

/-- Tiles with layout between them are scanned to their tokens. -/
theorem scanFrom_textOf {allowance position : Nat} {afterName : Bool} {layout : List Char}
    {tiles : List Tile} (enough : (textOf layout tiles).length < allowance)
    (blank : IsLayout layout) (laid : ∀ tile ∈ tiles, tile.Laid)
    (fits : FitRow afterName (tiles.map Tile.lexeme)) (apart : Apart tiles) :
    scanFrom allowance position afterName (textOf layout tiles) =
      .ok (tokensAt (position + byteLength layout) tiles) := by
  induction tiles generalizing allowance position afterName layout with
  | nil =>
      rw [textOf, List.flatMap_nil, List.append_nil] at enough ⊢
      cases allowance with
      | zero => exact absurd enough (Nat.not_lt_zero _)
      | succ allowance => exact scanFrom_layout allowance position afterName blank
  | cons tile tiles induction =>
      rcases List.forall_mem_cons.mp laid with ⟨here, later⟩
      rcases Lexeme.not_blank_of_spelling here.spells with ⟨some, ends⟩
      rw [textOf_cons] at enough ⊢
      cases allowance with
      | zero => exact absurd enough (Nat.not_lt_zero _)
      | succ allowance =>
          have stops : Stops (textOf tile.layout tiles) := here.blank.stops fun none => by
            cases tiles with
            | nil => rfl
            | cons next tiles => exact absurd none apart.1
          have apartLater : Apart tiles := by
            cases tiles with
            | nil => trivial
            | cons next tiles => exact apart.2
          have shorter : (textOf tile.layout tiles).length < allowance := by
            have positive := List.length_pos_iff.mpr some
            simp only [List.length_append] at enough
            omega
          rw [scanFrom_eq_read blank (List.append_ne_nil_of_left_ne_nil some _) (ends _),
            Lexeme.read_spelling here.spells fits.1 stops]
          dsimp only
          rw [induction shorter here.blank later fits.2 apartLater, tokensAt, Tile.text,
            byteLength_append, ← Nat.add_assoc]

/-- Where scanning stops, a character begins. -/
theorem boundary_of_scanFrom {allowance position : Nat} {afterName : Bool} {text : List Char}
    {error : ReadError} (failed : scanFrom allowance position afterName text = .error error) :
    ∃ before behind, text = before ++ behind ∧ error.position = position + byteLength before := by
  induction allowance generalizing position afterName text with
  | zero => cases failed
  | succ allowance induction =>
      rcases Lexeme.exists_run isBlank text with ⟨layout, rest, rfl, blank, ends⟩
      by_cases none : rest = []
      · subst none
        rw [List.append_nil, scanFrom_layout allowance position afterName blank] at failed
        cases failed
      · rw [scanFrom_eq_read blank none ends] at failed
        split at failed
        next complaint _ =>
          cases failed
          exact ⟨layout, rest, rfl, rfl⟩
        next spelled read =>
          split at failed
          next inner later =>
            cases failed
            rcases induction later with ⟨before, behind, split, offset⟩
            have sound := Lexeme.sound_read read
            refine ⟨layout ++ (spelled.spelling ++ before), behind, ?_, ?_⟩
            · rw [sound.split, split, List.append_assoc, List.append_assoc]
            · rw [offset, byteLength_append, byteLength_append, Nat.add_assoc, Nat.add_assoc]
          next => cases failed

/-! ## Offsets of tokens -/

namespace Tile

theorem length_tokensAt (position : Nat) (tiles : List Tile) :
    (tokensAt position tiles).length = tiles.length := by
  induction tiles generalizing position with
  | nil => rfl
  | cons tile tiles induction => rw [tokensAt, List.length_cons, induction, List.length_cons]

theorem getElem?_tokensAt {tiles : List Tile} {place : Nat} {tile : Tile}
    (present : tiles[place]? = some tile) (position : Nat) :
    (tokensAt position tiles)[place]? =
      some ⟨tile.lexeme, position + byteLength ((tiles.take place).flatMap text)⟩ := by
  induction tiles generalizing place position with
  | nil => cases present
  | cons first tiles induction =>
      cases place with
      | zero =>
          cases present
          rfl
      | succ place =>
          rw [tokensAt, List.getElem?_cons_succ, induction present, List.take_succ_cons,
            List.flatMap_cons, byteLength_append, ← Nat.add_assoc]

theorem le_position_of_mem {position : Nat} {tiles : List Tile} {token : Token}
    (member : token ∈ tokensAt position tiles) : position ≤ token.position := by
  induction tiles generalizing position with
  | nil => cases member
  | cons tile tiles induction =>
      rcases List.mem_cons.mp member with rfl | later
      · exact Nat.le_refl _
      · exact (Nat.le_add_right _ _).trans (induction later)

theorem tokensAt_increasing {tiles : List Tile} (laid : ∀ tile ∈ tiles, tile.Laid)
    (position : Nat) :
    (tokensAt position tiles).Pairwise fun first second => first.position < second.position := by
  induction tiles generalizing position with
  | nil => exact .nil
  | cons tile tiles induction =>
      rcases List.forall_mem_cons.mp laid with ⟨here, later⟩
      refine .cons (fun token member => ?_) (induction later _)
      have positive := byteLength_pos (Lexeme.not_blank_of_spelling here.spells).1
      have reached := le_position_of_mem member
      rw [text, byteLength_append] at reached
      dsimp only
      omega

end Tile

/-! ## Tokens and tiles -/

/-- The tokens of a text are those of tiles that the text is made of. -/
structure Tiles (text layout : List Char) (tiles : List Tile) (tokens : List Token) : Prop where
  made : text = textOf layout tiles
  blank : IsLayout layout
  laid : ∀ tile ∈ tiles, tile.Laid
  tokens : tokens = tokensAt (byteLength layout) tiles

def SameSpellings (tiles tilesToo : List Tile) : Prop :=
  List.Forall₂ (fun tile tileToo => tile.lexeme = tileToo.lexeme ∧
    tile.spelling = tileToo.spelling ∧ IsLayout tileToo.layout) tiles tilesToo

theorem SameSpellings.lexemes {tiles tilesToo : List Tile} (same : SameSpellings tiles tilesToo) :
    tiles.map Tile.lexeme = tilesToo.map Tile.lexeme := by
  induction same with
  | nil => rfl
  | cons here _ induction => rw [List.map_cons, List.map_cons, here.1, induction]

theorem SameSpellings.laid {tiles tilesToo : List Tile} (same : SameSpellings tiles tilesToo)
    (laid : ∀ tile ∈ tiles, tile.Laid) : ∀ tile ∈ tilesToo, tile.Laid := by
  induction same with
  | nil => exact List.forall_mem_nil _
  | cons here _ induction =>
      rcases List.forall_mem_cons.mp laid with ⟨first, later⟩
      have spells := first.spells
      rw [here.1, here.2.1] at spells
      exact List.forall_mem_cons.mpr ⟨⟨spells, here.2.2⟩, induction later⟩

/-- Scanning finds tiles, and it finds the same ones again wherever they are laid with layout
between them. -/
theorem exists_tiles_of_scan {text : List Char} {tokens : List Token}
    (scanned : scan text = .ok tokens) :
    ∃ layout tiles, Tiles text layout tiles tokens ∧
      ∀ layoutToo tilesToo, IsLayout layoutToo → SameSpellings tiles tilesToo → Apart tilesToo →
        scan (textOf layoutToo tilesToo) =
          .ok (tokensAt (byteLength layoutToo) tilesToo) := by
  rcases exists_tiles (Nat.lt_succ_self _) scanned with
    ⟨layout, tiles, made, blank, laid, fits, found⟩
  rw [Nat.zero_add] at found
  refine ⟨layout, tiles, ⟨made, blank, laid, found⟩, ?_⟩
  intro layoutToo tilesToo blankToo same apart
  rw [same.lexemes] at fits
  rw [scan, scanFrom_textOf (Nat.lt_succ_self _) blankToo (same.laid laid) fits apart,
    Nat.zero_add]

/-- Each token stands where the spelling of its tile starts, the tokens one behind the other. -/
theorem Tiles.offsets {text layout : List Char} {tiles : List Tile} {tokens : List Token}
    (tiled : Tiles text layout tiles tokens) :
    (∀ (place : Nat) (tile : Tile), tiles[place]? = some tile →
      tokens[place]? =
        some (Token.mk tile.lexeme (byteLength (textOf layout (tiles.take place))))) ∧
    (tokens.Pairwise fun first second => first.position < second.position) ∧
    ∀ token ∈ tokens, IsBoundary text token.position := by
  have found : ∀ (place : Nat) (tile : Tile), tiles[place]? = some tile →
      tokens[place]? =
        some (Token.mk tile.lexeme (byteLength (textOf layout (tiles.take place)))) := by
    intro place tile present
    rw [tiled.tokens, getElem?_tokensAt present, textOf, byteLength_append]
  refine ⟨found, ?_, ?_⟩
  · rw [tiled.tokens]
    exact tokensAt_increasing tiled.laid _
  · intro token member
    rcases List.getElem?_of_mem member with ⟨place, present⟩
    cases there : tiles[place]? with
    | none =>
        have outside := List.getElem?_eq_none_iff.mp there
        rw [tiled.tokens, List.getElem?_eq_none_iff.mpr (by rwa [length_tokensAt])] at present
        cases present
    | some tile =>
        rw [found place tile there] at present
        cases present
        refine ⟨textOf layout (tiles.take place), (tiles.drop place).flatMap Tile.text, ?_, rfl⟩
        rw [tiled.made, textOf, textOf, List.append_assoc, ← List.flatMap_append,
          List.take_append_drop]

theorem boundary_of_scan {text : List Char} {error : ReadError}
    (failed : scan text = .error error) : IsBoundary text error.position := by
  rcases boundary_of_scanFrom failed with ⟨before, behind, split, offset⟩
  exact ⟨before, behind, split, by rw [offset, Nat.zero_add]⟩

end Token

end Destructure
