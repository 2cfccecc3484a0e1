import Destructure.Proofs.Reading.Acceptance
import Destructure.Proofs.Token.Scanning

/-!
Texts that are spelled by phrases, put together the way printers do it: items with commas between
them, brackets around them and names in front of these.
-/

namespace Destructure

open Text Number Lexeme

def Number.Binary64.IsFinite : Binary64 → Prop
  | .finite _ _ _ => True
  | .infinite _ => False

namespace Reading

variable {Result : Type}

/-- What the items of a list are is known from their own lexemes. -/
theorem Listed.forall_mem {item : List Lexeme → Result → Prop} {property : Result → Prop}
    {lexemes : List Lexeme} {results : List Result} (listed : Listed item lexemes results)
    (holds : ∀ part result, part <:+: lexemes → item part result → property result) :
    ∀ result ∈ results, property result := by
  induction listed with
  | none => exact List.forall_mem_nil _
  | last item => exact List.forall_mem_singleton.mpr (holds _ _ (List.infix_refl _) item)
  | @cons first result others results item listed induction =>
      have inside : others <:+: first ++ .comma :: others :=
        ((List.suffix_cons _ _).trans (List.suffix_append _ _)).isInfix
      refine List.forall_mem_cons.mpr ⟨holds _ _ (List.prefix_append _ _).isInfix item, ?_⟩
      exact induction fun part result within => holds part result (within.trans inside)

theorem Joined.forall_mem_infix {separator : Lexeme} {operand : List Lexeme → Result → Prop}
    {property : Result → Prop} {lexemes : List Lexeme} {results : List Result}
    (joined : Joined separator operand lexemes results)
    (holds : ∀ part result, part <:+: lexemes → operand part result → property result) :
    ∀ result ∈ results, property result := by
  induction joined with
  | last here => exact List.forall_mem_singleton.mpr (holds _ _ (List.infix_refl _) here)
  | @cons first result others results here later induction =>
      have inside : others <:+: first ++ separator :: others :=
        ((List.suffix_cons _ _).trans (List.suffix_append _ _)).isInfix
      refine List.forall_mem_cons.mpr ⟨holds _ _ (List.prefix_append _ _).isInfix here, ?_⟩
      exact induction fun part result within => holds part result (within.trans inside)

/-! ## Parts of phrases -/

def Inside (part lexemes : List Lexeme) : Prop :=
  part <:+: lexemes ∧ part.length < lexemes.length

/-- What holds of lexemes if it holds of their proper parts holds of all. -/
theorem inside_induction {motive : List Lexeme → Prop}
    (step : ∀ lexemes, (∀ part, Inside part lexemes → motive part) → motive lexemes)
    (lexemes : List Lexeme) : motive lexemes := by
  induction size : lexemes.length using Nat.strongRecOn generalizing lexemes with
  | _ size induction =>
      exact step lexemes fun part inside => induction part.length (size ▸ inside.2) part rfl

theorem inside_inBrackets (bracket : Bracket) {part inner : List Lexeme}
    (within : part <:+: inner) :
    Inside part (inBrackets bracket inner) := by
  refine ⟨within.trans ⟨[.opening bracket], [.closing bracket], rfl⟩, ?_⟩
  have shorter := within.length_le
  simp only [inBrackets, List.length_cons, List.length_append]
  omega

theorem inside_cons (lexeme : Lexeme) (lexemes : List Lexeme) :
    Inside lexemes (lexeme :: lexemes) :=
  ⟨(List.suffix_cons _ _).isInfix, Nat.lt_succ_self _⟩

theorem Inside.cons {part lexemes : List Lexeme} (inside : Inside part lexemes) (lexeme : Lexeme) :
    Inside part (lexeme :: lexemes) :=
  ⟨inside.1.trans (List.suffix_cons _ _).isInfix, Nat.lt_succ_of_lt inside.2⟩

theorem Inside.left {part others lexemes : List Lexeme} (inside : Inside (part ++ others) lexemes) :
    Inside part lexemes := by
  refine ⟨(List.prefix_append _ _).isInfix.trans inside.1, ?_⟩
  have shorter := inside.2
  rw [List.length_append] at shorter
  omega

theorem Inside.right {part others lexemes : List Lexeme}
    (inside : Inside (others ++ part) lexemes) :
    Inside part lexemes := by
  refine ⟨(List.suffix_append _ _).isInfix.trans inside.1, ?_⟩
  have shorter := inside.2
  rw [List.length_append] at shorter
  omega

theorem Inside.tail {part lexemes : List Lexeme} {lexeme : Lexeme}
    (inside : Inside (lexeme :: part) lexemes) : Inside part lexemes :=
  @Inside.right part [lexeme] lexemes inside

/-- Where there are several operands, each is a proper part. -/
theorem Joined.forall_mem {separator : Lexeme} {operand : List Lexeme → Result → Prop}
    {property : Result → Prop} {lexemes : List Lexeme} {first second : Result}
    {others : List Result} (joined : Joined separator operand lexemes (first :: second :: others))
    (holds : ∀ part result, Inside part lexemes → operand part result → property result) :
    ∀ result ∈ first :: second :: others, property result := by
  cases joined with
  | @cons part _ behind _ here later =>
      have lengths : (part ++ separator :: behind).length = part.length + (behind.length + 1) := by
        rw [List.length_append, List.length_cons]
      have insideHere : Inside part (part ++ separator :: behind) :=
        ⟨(List.prefix_append _ _).isInfix, by omega⟩
      have insideLater : Inside behind (part ++ separator :: behind) :=
        ⟨((List.suffix_cons _ _).trans (List.suffix_append _ _)).isInfix, by omega⟩
      refine List.forall_mem_cons.mpr ⟨holds _ _ insideHere here, ?_⟩
      refine later.forall_mem_infix fun part result within => holds part result ?_
      exact ⟨within.trans insideLater.1, Nat.lt_of_le_of_lt within.length_le insideLater.2⟩

/-! ## Rendered phrases -/

theorem isName_of_reserved : ∀ name ∈ reservedNames, IsName name.toList := by
  decide +kernel

theorem spells_reserved (name : String) (reserved : name ∈ reservedNames) :
    Spells name.toList [.name name] := by
  have spells := spells_name (isName_of_reserved name reserved)
  rwa [String.ofList_toList] at spells

def Renders (phrase : List Lexeme → Result → Prop) (text : List Char) (result : Result) : Prop :=
  ∃ lexemes, phrase lexemes result ∧ Spells text lexemes

theorem commaSeparated_cons_cons (first second : List Char) (texts : List (List Char)) :
    commaSeparated (first :: second :: texts) =
      first ++ [',', ' '] ++ commaSeparated (second :: texts) := by
  simp [commaSeparated, List.intercalate, List.intersperse]

theorem commaSeparated_singleton (text : List Char) : commaSeparated [text] = text := by
  simp [commaSeparated, List.intercalate, List.intersperse]

theorem renders_commaSeparated {phrase : List Lexeme → Result → Prop} {Item : Type}
    {text : Item → List Char} {result : Item → Result} {items : List Item}
    (renders : ∀ item ∈ items, Renders phrase (text item) (result item)) :
    Renders (Listed phrase) (commaSeparated (items.map text)) (items.map result) := by
  induction items with
  | nil => exact ⟨[], .none, spells_nil⟩
  | cons item items induction =>
      rcases List.forall_mem_cons.mp renders with ⟨⟨lexemes, holds, spells⟩, later⟩
      cases items with
      | nil =>
          rw [List.map_singleton, commaSeparated_singleton]
          exact ⟨lexemes, .last holds, spells⟩
      | cons second items =>
          rcases induction later with ⟨others, listed, spellsOthers⟩
          rw [List.map_cons, List.map_cons, commaSeparated_cons_cons]
          exact ⟨_, .cons holds listed, spells.then separates_comma spellsOthers⟩

theorem readAll_of_renders {expression : (endPosition allowance : Nat) → Reader Result}
    {phrase : List Lexeme → Result → Prop}
    (accepts : ∀ endPosition tokens result, readWhole expression endPosition tokens = .ok result ↔
      phrase (tokens.map Token.lexeme) result) {text : List Char} {result : Result}
    (renders : Renders phrase text result) :
    readAll expression (String.ofList text) = .ok result := by
  rcases renders with ⟨lexemes, holds, spells⟩
  rcases spells [] stops_nil with ⟨afterName, takes⟩
  rw [List.append_nil] at takes
  rcases Token.scan_of_takes takes with ⟨tokens, scanned, rfl⟩
  rw [readAll_eq_ok_iff accepts, String.toList_ofList]
  exact ⟨tokens, scanned, holds⟩

/-! ## Texts without infinities -/

def NoInfinity (text : List Char) : Prop :=
  Breaks text ∨ ∃ lexemes, Spells text lexemes ∧ ∀ number, .float number ∈ lexemes → number.IsFinite

theorem noInfinity_of_spells {text : List Char} {lexeme : Lexeme} (spells : Spells text [lexeme])
    (finite : ∀ number, lexeme = .float number → number.IsFinite) : NoInfinity text :=
  .inr ⟨_, spells, fun number member => finite number (List.mem_singleton.mp member).symm⟩

theorem noInfinity_name {name : List Char} (isName : IsName name) : NoInfinity name :=
  noInfinity_of_spells (spells_name isName) fun _ equal => by cases equal

theorem NoInfinity.then {text separator others : List Char} {lexeme : Lexeme}
    (holds : NoInfinity text) (separates : Separates separator lexeme)
    (noNumber : ∀ number, lexeme ≠ .float number) (holdsToo : NoInfinity others) :
    NoInfinity (text ++ separator ++ others) := by
  rcases holds with breaks | ⟨lexemes, spells, finite⟩
  · exact .inl (breaks.append separates others)
  rcases holdsToo with breaks | ⟨behind, spellsOthers, finiteOthers⟩
  · exact .inl (spells.breaks separates breaks)
  refine .inr ⟨_, spells.then separates spellsOthers, ?_⟩
  intro number member
  rcases List.mem_append.mp member with before | after
  · exact finite number before
  rcases List.mem_cons.mp after with equal | behind
  · exact absurd equal.symm (noNumber number)
  · exact finiteOthers number behind

theorem noInfinity_nil : NoInfinity [] :=
  .inr ⟨[], spells_nil, fun _ member => by cases member⟩

theorem NoInfinity.enclosed {name text : List Char} (holds : NoInfinity name) (bracket : Bracket)
    (inside : NoInfinity text) :
    NoInfinity (name ++ bracket.opening :: text ++ [bracket.closing]) := by
  have whole := holds.then (separates_opening bracket) (fun _ equal => by cases equal)
    (inside.then (separates_closing bracket) (fun _ equal => by cases equal) noInfinity_nil)
  rwa [List.append_nil, ← List.append_assoc, List.append_assoc name] at whole

theorem NoInfinity.field {name text : List Char} (isName : IsName name) (holds : NoInfinity text) :
    NoInfinity (name ++ [':', ' '] ++ text) := by
  rcases holds with breaks | ⟨lexemes, spells, finite⟩
  · exact .inl (breaks.field isName)
  · refine .inr ⟨_, spells.field isName, ?_⟩
    intro number member
    simp only [List.mem_cons, reduceCtorEq, false_or] at member
    exact finite number member

theorem noInfinity_commaSeparated {Item : Type} {text : Item → List Char} {items : List Item}
    (holds : ∀ item ∈ items, NoInfinity (text item)) :
    NoInfinity (commaSeparated (items.map text)) := by
  induction items with
  | nil => exact noInfinity_nil
  | cons item items induction =>
      rcases List.forall_mem_cons.mp holds with ⟨here, later⟩
      cases items with
      | nil =>
          rw [List.map_singleton, commaSeparated_singleton]
          exact here
      | cons second items =>
          rw [List.map_cons, List.map_cons, commaSeparated_cons_cons]
          exact here.then separates_comma (fun _ equal => by cases equal) (induction later)

theorem scan_of_noInfinity {text : List Char} (holds : NoInfinity text) {tokens : List Token}
    (scanned : Token.scan text = .ok tokens) :
    ∀ number, .float number ∈ tokens.map Token.lexeme → number.IsFinite := by
  rcases holds with breaks | ⟨lexemes, spells, finite⟩
  · have halts := breaks [] stops_nil
    rw [List.append_nil] at halts
    rcases Token.scan_of_halts halts with ⟨error, failed⟩
    rw [scanned] at failed
    cases failed
  · rcases spells [] stops_nil with ⟨afterName, takes⟩
    rw [List.append_nil] at takes
    rcases Token.scan_of_takes takes with ⟨tokens, scannedToo, rfl⟩
    rw [scanned] at scannedToo
    cases scannedToo
    exact finite

end Reading

end Destructure
