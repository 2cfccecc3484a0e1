import Destructure.Pattern.Printer
import Destructure.Regex.Search
import Destructure.Proofs.Reading.ValueText

/-!
The text of a pattern that was read, read again. Operators come back as calls, a count of zero is
left out, and an entry that binds a symbol under its own name is written in the short form; each
of these texts is a phrase for the same pattern. Only the literals of the pattern and the keys of
its maps can stand in the way, as they do in values.
-/

namespace Destructure

open Text Number

variable {α : Type}

def Value.isAtom : Value α → Bool
  | .list _ | .map _ | .record _ _ => false
  | _ => true

namespace Pattern

/-- The patterns that can be read. In an entry of the short form, the name of the variable may be
one that has another meaning elsewhere. -/
inductive IsWritten [Regex.Engine] [BEq α] : Pattern α → Prop where
  | literal {value : Value α} : value.IsLiteral Lexeme.IsRounded → value.isAtom →
      IsWritten (.literal value)
  | kind (kind : Kind) : IsWritten (.kind kind)
  | bind {name : String} : IsName name.toList → name ∉ Reading.reservedNames →
      IsWritten (.bind name)
  | wildcard : IsWritten .wildcard
  | call {name : String} {items : List (Pattern α)} : IsName name.toList →
      name ∉ Reading.compositeNames → (∀ item ∈ items, IsWritten item) →
      IsWritten (.deconstruct (.named name) items)
  | regex {regex : Regex} {items : List (Pattern α)} : Lexeme.IsSource regex.source.toList →
      Regex.compile regex.source = .ok regex → (∀ item ∈ items, IsWritten item) →
      IsWritten (.deconstruct (.regex regex) items)
  | map {entries : List (Value α × Pattern α)} :
      (∀ entry ∈ entries, entry.1.IsLiteral Lexeme.IsRounded) →
      (∀ entry ∈ entries, isBare entry.1 entry.2 = false → IsWritten entry.2) →
      IsWritten (.keyed .map entries)
  | record {tag : String} {entries : List (Value α × Pattern α)} : IsName tag.toList →
      (∀ entry ∈ entries, ∃ name, entry.1 = .symbol name ∧ IsName name.toList) →
      (∀ entry ∈ entries, isBare entry.1 entry.2 = false → IsWritten entry.2) →
      IsWritten (.keyed (.record tag) entries)
  | repetition {minimum : Nat} (lazy : Bool) : minimum < Lexeme.repetitionLimit →
      IsWritten (.repetition minimum (if lazy then some .lazy else none))
  | sequence {items : List (Pattern α)} : (∀ item ∈ items, IsWritten item) →
      IsWritten (.sequence items)
  | and {operands : List (Pattern α)} : (∀ operand ∈ operands, IsWritten operand) →
      IsWritten (.and operands)
  | or {operands : List (Pattern α)} : (∀ operand ∈ operands, IsWritten operand) →
      IsWritten (.or operands)
  | not {operands : List (Pattern α)} : (∀ operand ∈ operands, IsWritten operand) →
      IsWritten (.not operands)

mutual
def atoms : Pattern α → List (Value α)
  | .literal value | .compared value _ => value.atoms
  | .deconstruct _ items | .sequence items => atomsOfAll items
  | .and operands | .or operands | .not operands => atomsOfAll operands
  | .keyed _ entries => atomsOfEntries entries
  | .kind _ | .bind _ | .wildcard | .repetition _ _ | .condition _ => []
termination_by structural pattern => pattern

def atomsOfAll : List (Pattern α) → List (Value α)
  | [] => []
  | pattern :: patterns => pattern.atoms ++ atomsOfAll patterns
termination_by structural patterns => patterns

def atomsOfEntries : List (Value α × Pattern α) → List (Value α)
  | [] => []
  | (key, content) :: entries => key.atoms ++ content.atoms ++ atomsOfEntries entries
termination_by structural entries => entries
end

def ReadsBack (pattern : Pattern α) : Prop :=
  ∀ atom ∈ pattern.atoms, atom.HasLiteral ∧ atom.HasQuotation

theorem forall_mem_atomsOfAll {patterns : List (Pattern α)} {property : Value α → Prop} :
    (∀ atom ∈ atomsOfAll patterns, property atom) ↔
      ∀ pattern ∈ patterns, ∀ atom ∈ pattern.atoms, property atom := by
  induction patterns with
  | nil => simp [atomsOfAll]
  | cons pattern patterns induction =>
      rw [atomsOfAll, List.forall_mem_append, induction, List.forall_mem_cons]

theorem forall_mem_atomsOfEntries {entries : List (Value α × Pattern α)}
    {property : Value α → Prop} :
    (∀ atom ∈ atomsOfEntries entries, property atom) ↔
      ∀ entry ∈ entries, (∀ atom ∈ entry.1.atoms, property atom) ∧
        ∀ atom ∈ entry.2.atoms, property atom := by
  induction entries with
  | nil => simp [atomsOfEntries]
  | cons entry entries induction =>
      rw [atomsOfEntries, List.forall_mem_append, List.forall_mem_append, induction,
        List.forall_mem_cons]

section Texts

variable [Foreign α]

theorem renderAll_eq (patterns : List (Pattern α)) : renderAll patterns = patterns.map render := by
  induction patterns with
  | nil => rfl
  | cons pattern patterns induction => rw [renderAll, induction, List.map_cons]

def renderEntry (shape : KeyedShape) (entry : Value α × Pattern α) : List Char :=
  if isBare entry.1 entry.2 then entry.1.render else renderKey shape entry.1 ++ entry.2.render

theorem renderEntries_eq (shape : KeyedShape) (entries : List (Value α × Pattern α)) :
    renderEntries shape entries = entries.map (renderEntry shape) := by
  induction entries with
  | nil => rfl
  | cons entry entries induction => rw [renderEntries, induction, List.map_cons, renderEntry]

end Texts

end Pattern

namespace Reading

open Pattern

/-! ## What is read -/

section Reading

variable [Regex.Engine] [BEq α] {lexemes : List Lexeme} {pattern : Pattern α}

theorem isWritten_of_name {name : String} (isName : IsName name.toList)
    (phrase : NamePhrase name pattern) : IsWritten pattern := by
  cases phrase with
  | wildcard => exact .wildcard
  | nil => exact .literal .nil rfl
  | true => exact .literal (.bool true) rfl
  | false => exact .literal (.bool false) rfl
  | kind kind => exact .kind kind
  | «variable» free => exact .bind isName free

theorem isWritten_of_call {name : String} {items : List (Pattern α)} (isName : IsName name.toList)
    (phrase : CallPhrase name items pattern) (written : ∀ item ∈ items, IsWritten item) :
    IsWritten pattern := by
  cases phrase with
  | sequence => exact .sequence written
  | and => exact .and written
  | or => exact .or written
  | not => exact .not written
  | shape items free => exact .call isName free written

theorem isWritten_of_literal {lexeme : Lexeme} {value : Value α} (readable : lexeme.IsReadable)
    (phrase : LiteralPhrase lexeme value) : IsWritten (.literal value) := by
  cases phrase with
  | int number => exact .literal (.int number) rfl
  | float number => exact .literal (.float readable) rfl
  | string text => exact .literal (.string text) rfl
  | symbol name => exact .literal (.symbol readable) rfl

section Levels

variable (readable : ∀ lexeme ∈ lexemes, lexeme.IsReadable)
variable (inner : ∀ part (pattern : Pattern α), Inside part lexemes → PatternPhrase part pattern →
  IsWritten pattern)
include readable inner

theorem isWritten_of_entry {part : List Lexeme} {entry : Value α × Pattern α}
    (inside : Inside part lexemes) (phrase : EntryPhrase PatternPhrase part entry) :
    entry.1.IsLiteral Lexeme.IsRounded ∧
      (isBare entry.1 entry.2 = false → IsWritten entry.2) := by
  have readable := fun lexeme member => readable lexeme (inside.1.subset member)
  cases phrase with
  | bare name =>
      refine ⟨.symbol (readable (.symbol name) List.mem_cons_self), fun notBare => ?_⟩
      rw [isBare, beq_self_eq_true] at notBare
      cases notBare
  | full key content =>
      have readableKey := fun lexeme member => readable lexeme (List.mem_append_left _ member)
      exact ⟨isLiteral_of_phrase _ readableKey (fun number => readableKey (.float number)) _ key,
        fun _ => inner _ _ inside.right.tail content⟩

theorem isWritten_of_field {part : List Lexeme} {entry : Value α × Pattern α}
    (inside : Inside part lexemes) (phrase : FieldPhrase PatternPhrase part entry) :
    (∃ name, entry.1 = .symbol name ∧ IsName name.toList) ∧
      (isBare entry.1 entry.2 = false → IsWritten entry.2) := by
  have readable := fun lexeme member => readable lexeme (inside.1.subset member)
  cases phrase with
  | bare name =>
      refine ⟨⟨name, rfl, readable (.symbol name) List.mem_cons_self⟩, fun notBare => ?_⟩
      rw [isBare, beq_self_eq_true] at notBare
      cases notBare
  | full name content =>
      exact ⟨⟨name, rfl, readable (.name name) List.mem_cons_self⟩,
        fun _ => inner _ _ inside.tail.tail content⟩

theorem isWritten_of_primary (phrase : PrimaryPhrase lexemes pattern) : IsWritten pattern := by
  cases phrase with
  | list listed =>
      exact .call (by decide +kernel) (by decide) (listed.forall_mem fun part item within =>
        inner part item (inside_inBrackets _ within))
  | map listed =>
      have entries := listed.forall_mem fun part entry within =>
        isWritten_of_entry readable inner (inside_inBrackets .curly within)
      exact .map (fun entry member => (entries entry member).1)
        (fun entry member => (entries entry member).2)
  | group holds => exact inner _ _ (inside_inBrackets _ (List.infix_refl _)) holds
  | repetition minimum lazy => exact .repetition lazy (readable _ List.mem_cons_self)
  | regex compiled =>
      cases Regex.source_of_compile compiled
      refine .regex (readable _ List.mem_cons_self) compiled fun item member => ?_
      rw [List.eq_of_mem_replicate member]
      exact .wildcard
  | regexCall compiled listed =>
      cases Regex.source_of_compile compiled
      exact .regex (readable _ List.mem_cons_self) compiled (listed.forall_mem fun part item within =>
        inner part item ((inside_inBrackets _ within).cons _))
  | call listed phrase =>
      exact isWritten_of_call (readable _ List.mem_cons_self) phrase
        (listed.forall_mem fun part item within =>
          inner part item ((inside_inBrackets _ within).cons _))
  | record tag listed =>
      have entries := listed.forall_mem fun part entry within =>
        isWritten_of_field readable inner ((inside_inBrackets .curly within).cons (.name tag))
      exact .record (readable _ List.mem_cons_self) (fun entry member => (entries entry member).1)
        (fun entry member => (entries entry member).2)
  | name phrase => exact isWritten_of_name (readable _ List.mem_cons_self) phrase
  | literal phrase => exact isWritten_of_literal (readable _ List.mem_cons_self) phrase

theorem isWritten_of_negation (phrase : NegationPhrase lexemes pattern) : IsWritten pattern := by
  cases phrase with
  | alone phrase => exact isWritten_of_primary readable inner phrase
  | negation phrase =>
      exact .not (List.forall_mem_singleton.mpr
        (inner _ _ (inside_cons .bang _) (.alone (.alone phrase))))

theorem isWritten_of_conjunction (phrase : ConjunctionPhrase lexemes pattern) :
    IsWritten pattern := by
  cases phrase with
  | alone phrase => exact isWritten_of_negation readable inner phrase
  | conjunction joined =>
      exact .and (joined.forall_mem fun part operand inside holds =>
        inner part operand inside (.alone (.alone holds)))

end Levels

theorem isWritten_of_phrase (lexemes : List Lexeme) :
    (∀ lexeme ∈ lexemes, lexeme.IsReadable) →
      ∀ pattern : Pattern α, PatternPhrase lexemes pattern → IsWritten pattern := by
  induction lexemes using inside_induction with
  | step lexemes induction =>
      intro readable pattern phrase
      have inner : ∀ part (pattern : Pattern α), Inside part lexemes →
          PatternPhrase part pattern → IsWritten pattern := by
        intro part pattern inside holds
        exact induction part inside
          (fun lexeme member => readable lexeme (inside.1.subset member)) pattern holds
      cases phrase with
      | alone phrase => exact isWritten_of_conjunction readable inner phrase
      | choice joined =>
          exact .or (joined.forall_mem fun part operand inside holds =>
            inner part operand inside (.alone holds))

end Reading

/-! ## The text of a pattern -/

section Texts

variable [Foreign α]

theorem renders_value {value : Value α} (literal : value.IsLiteral Lexeme.IsRounded)
    (readsBack : value.ReadsBack) : Renders ValuePhrase value.render value := by
  have renders := renders_readBack literal fun atom member => (readsBack atom member).1
  rwa [readBack_eq literal fun atom member => (readsBack atom member).2] at renders

omit [Foreign α] in
theorem exists_of_isBare {key : Value α} {content : Pattern α} (bare : isBare key content) :
    ∃ name, key = .symbol name ∧ content = .bind name := by
  unfold isBare at bare
  split at bare
  next key name => exact ⟨key, rfl, congrArg _ (eq_of_beq bare).symm⟩
  next => cases bare

omit [Foreign α] in
theorem spells_bareEntry {name : String} (isName : IsName name.toList) :
    Lexeme.Spells (':' :: name.toList) [.symbol name] := by
  have spells := Lexeme.spells_symbol isName
  rwa [String.ofList_toList] at spells

variable [Regex.Engine]

omit [Foreign α] in
theorem Renders.pattern [BEq α] {text : List Char} {pattern : Pattern α}
    (renders : Renders PrimaryPhrase text pattern) : Renders PatternPhrase text pattern := by
  rcases renders with ⟨lexemes, phrase, spells⟩
  exact ⟨lexemes, .alone (.alone (.alone phrase)), spells⟩

omit [Foreign α] in
theorem primaryPhrase_of_valuePhrase [BEq α] {lexemes : List Lexeme} {value : Value α}
    (phrase : ValuePhrase lexemes value) (atom : value.isAtom) :
    PrimaryPhrase lexemes (.literal value) := by
  cases phrase with
  | int number => exact .literal (.int number)
  | float number => exact .literal (.float number)
  | string text => exact .literal (.string text)
  | symbol name => exact .literal (.symbol name)
  | nil => exact .name .nil
  | true => exact .name .true
  | false => exact .name .false
  | list listed => cases atom
  | map listed => cases atom
  | record tag free listed => cases atom

omit [Foreign α] in
theorem renders_call [BEq α] {name : String} (isName : IsName name.toList)
    {texts : List Char} {items : List (Pattern α)} {pattern : Pattern α}
    (phrase : CallPhrase name items pattern)
    (renders : Renders (Listed PatternPhrase) texts items) :
    Renders PrimaryPhrase (name.toList ++ '(' :: texts ++ [')']) pattern := by
  rcases renders with ⟨lexemes, listed, spells⟩
  have spelled := (Lexeme.spells_name isName).enclosed .round spells
  rw [String.ofList_toList] at spelled
  exact ⟨_, .call listed phrase, spelled⟩

theorem renders_items {items : List (Pattern α)}
    (renders : ∀ item ∈ items, Renders PrimaryPhrase item.render item) :
    Renders (Listed PatternPhrase) (commaSeparated (renderAll items)) items := by
  have row : Renders (Listed PatternPhrase) (commaSeparated (items.map render)) (items.map id) :=
    renders_commaSeparated fun item member => (renders item member).pattern
  rwa [List.map_id, ← renderAll_eq] at row

theorem renders_repetition {minimum : Nat} (lazy : Bool)
    (small : minimum < Lexeme.repetitionLimit) :
    Renders PrimaryPhrase (renderRepetition minimum (if lazy then some .lazy else none))
      (.repetition minimum (if lazy then some .lazy else none) : Pattern α) := by
  refine ⟨_, .repetition minimum lazy, Lexeme.spells_of_read fun rest stops => ?_⟩
  cases lazy with
  | true =>
      have text : renderRepetition minimum (some .lazy) ++ rest =
          '.' :: '.' :: (Lexeme.countDigits minimum ++ '?' :: rest) :=
        List.append_assoc ('.' :: '.' :: Lexeme.countDigits minimum) ['?'] rest
      rw [if_pos rfl, text]
      exact ⟨_, Lexeme.read_lazyRepetition false small rest⟩
  | false =>
      have text : renderRepetition minimum none ++ rest =
          '.' :: '.' :: (Lexeme.countDigits minimum ++ rest) :=
        List.append_assoc ('.' :: '.' :: Lexeme.countDigits minimum) [] rest
      rw [if_neg Bool.false_ne_true, text]
      exact ⟨_, Lexeme.read_repetition false small stops⟩

theorem renders_entry {key : Value α} {content : Pattern α}
    (literal : key.IsLiteral Lexeme.IsRounded) (readsBack : key.ReadsBack)
    (renders : isBare key content = false → Renders PrimaryPhrase content.render content) :
    Renders (EntryPhrase PatternPhrase) (renderEntry .map (key, content)) (key, content) := by
  cases bare : isBare key content with
  | true =>
      rcases exists_of_isBare bare with ⟨name, rfl, rfl⟩
      rw [renderEntry, if_pos bare]
      cases literal with
      | symbol isName => exact ⟨_, .bare name, spells_bareEntry isName⟩
  | false =>
      rcases renders_value literal readsBack with ⟨lexemes, phrase, spells⟩
      rcases (renders bare).pattern with ⟨others, phraseToo, spellsToo⟩
      rw [renderEntry, bare, if_neg Bool.false_ne_true, renderKey]
      exact ⟨_, .full phrase phraseToo, spells.then Lexeme.separates_arrow spellsToo⟩

theorem renders_field (tag : String) {name : String} (isName : IsName name.toList)
    {content : Pattern α}
    (renders : isBare (.symbol name) content = false →
      Renders PrimaryPhrase content.render content) :
    Renders (FieldPhrase PatternPhrase) (renderEntry (.record tag) (.symbol name, content))
      (.symbol name, content) := by
  cases bare : isBare (.symbol name) content with
  | true =>
      rcases exists_of_isBare bare with ⟨same, equal, rfl⟩
      cases equal
      rw [renderEntry, if_pos bare]
      exact ⟨_, .bare name, spells_bareEntry isName⟩
  | false =>
      rcases (renders bare).pattern with ⟨lexemes, phrase, spells⟩
      rw [renderEntry, bare, if_neg Bool.false_ne_true, renderKey]
      have spelled := spells.field isName
      rw [String.ofList_toList] at spelled
      exact ⟨_, .full name phrase, spelled⟩

/-- The text of a pattern is spelled by a phrase for the pattern. -/
theorem renders_pattern {pattern : Pattern α} (written : IsWritten pattern)
    (readsBack : pattern.ReadsBack) : Renders PrimaryPhrase pattern.render pattern := by
  induction written with
  | literal literal atom =>
      rcases renders_value literal readsBack with ⟨lexemes, phrase, spells⟩
      exact ⟨lexemes, primaryPhrase_of_valuePhrase phrase atom, spells⟩
  | kind kind =>
      have reserved : kind.name ∈ reservedNames :=
        List.mem_append_right _ (List.mem_map_of_mem (Kind.mem_all kind))
      exact ⟨_, .name (.kind kind), spells_reserved kind.name reserved⟩
  | @bind name isName free =>
      have spells := Lexeme.spells_name isName
      rw [String.ofList_toList] at spells
      exact ⟨_, .name (.variable free), spells⟩
  | wildcard => exact ⟨_, .name .wildcard, spells_reserved "_" (by decide)⟩
  | @call name items isName free written induction =>
      have row := renders_items fun item member =>
        induction item member (forall_mem_atomsOfAll.mp readsBack item member)
      rw [render]
      split
      next isList =>
        cases isList
        rcases row with ⟨lexemes, listed, spells⟩
        exact ⟨_, .list listed, Lexeme.spells_nil.enclosed .square spells⟩
      next => exact renders_call isName (.shape items free) row
  | @regex regex items isSource compiled written induction =>
      have row := renders_items fun item member =>
        induction item member (forall_mem_atomsOfAll.mp readsBack item member)
      rcases row with ⟨lexemes, listed, spells⟩
      rw [render, if_neg (by intro equal; cases equal)]
      exact ⟨_, .regexCall compiled listed,
        (Lexeme.spells_regex isSource).enclosed .round spells⟩
  | @map entries keys contents induction =>
      have atoms := forall_mem_atomsOfEntries.mp readsBack
      have row : Renders (Listed (EntryPhrase PatternPhrase))
          (commaSeparated (entries.map (renderEntry .map))) (entries.map id) :=
        renders_commaSeparated fun entry member => renders_entry (keys entry member)
          (atoms entry member).1 fun bare => induction entry member bare (atoms entry member).2
      rw [List.map_id, ← renderEntries_eq] at row
      rcases row with ⟨lexemes, listed, spells⟩
      exact ⟨_, .map listed, Lexeme.spells_nil.enclosed .curly spells⟩
  | @record tag entries isName names contents induction =>
      have atoms := forall_mem_atomsOfEntries.mp readsBack
      have row : Renders (Listed (FieldPhrase PatternPhrase))
          (commaSeparated (entries.map (renderEntry (.record tag)))) (entries.map id) := by
        refine renders_commaSeparated fun entry member => ?_
        have renders := fun bare => induction entry member bare (atoms entry member).2
        rcases names entry member with ⟨name, symbol, isName⟩
        rcases entry with ⟨key, content⟩
        cases symbol
        exact renders_field tag isName renders
      rw [List.map_id, ← renderEntries_eq] at row
      rcases row with ⟨lexemes, listed, spells⟩
      have spelled := (Lexeme.spells_name isName).enclosed .curly spells
      rw [String.ofList_toList] at spelled
      exact ⟨_, .record tag listed, spelled⟩
  | repetition lazy small => exact renders_repetition lazy small
  | sequence written induction =>
      exact renders_call (isName_of_reserved "Seq" (by decide)) (.sequence _)
        (renders_items fun item member =>
          induction item member (forall_mem_atomsOfAll.mp readsBack item member))
  | and written induction =>
      exact renders_call (isName_of_reserved "And" (by decide)) (.and _)
        (renders_items fun item member =>
          induction item member (forall_mem_atomsOfAll.mp readsBack item member))
  | or written induction =>
      exact renders_call (isName_of_reserved "Or" (by decide)) (.or _)
        (renders_items fun item member =>
          induction item member (forall_mem_atomsOfAll.mp readsBack item member))
  | not written induction =>
      exact renders_call (isName_of_reserved "Not" (by decide)) (.not _)
        (renders_items fun item member =>
          induction item member (forall_mem_atomsOfAll.mp readsBack item member))

theorem parse_pattern_iff {source : String} {pattern : Pattern α} :
    Pattern.parse source = .ok pattern ↔
      ∃ tokens, Token.scan source.toList = .ok tokens ∧
        PatternPhrase (tokens.map Token.lexeme) pattern :=
  readAll_eq_ok_iff readWhole_pattern_iff source pattern

/-- A pattern that was read is read again from its text, unless a number among its literals and
keys is infinite or a string there is spelled with code points. -/
theorem pattern_text_read_back {source : String} {pattern : Pattern α}
    (parsed : Pattern.parse source = .ok pattern) (readsBack : pattern.ReadsBack) :
    Pattern.parse pattern.text = .ok pattern := by
  rcases parse_pattern_iff.mp parsed with ⟨tokens, scanned, phrase⟩
  have written := isWritten_of_phrase _ (Token.scan_isReadable scanned) pattern phrase
  exact readAll_of_renders readWhole_pattern_iff (renders_pattern written readsBack).pattern

end Texts

section BuiltIn

attribute [local instance] Regex.Engine.builtIn

/-- A key with a line break, a lazy count, a short entry whose name has a meaning elsewhere, and two
operators that come back as calls. -/
theorem choice_of_map_read_back :
    ∃ pattern : Pattern Empty,
      Pattern.parse "\x7b\"k\\n\" => [x, ..1?], :nil\x7d | !Int" = .ok pattern ∧ pattern.ReadsBack ∧
        Pattern.parse pattern.text = .ok pattern := by
  have parsed : (Pattern.parse "\x7b\"k\\n\" => [x, ..1?], :nil\x7d | !Int" :
      Except ReadFailure (Pattern Empty)) =
      .ok (.or [.keyed .map [(.string "k\n", .list [.bind "x", .repetition 1 (some .lazy)]),
        (.symbol "nil", .bind "nil")], .not [.kind .int]]) := rfl
  have plain : PlainText ['k', '\n'] :=
    ⟨.inl (by decide +kernel), List.forall_mem_singleton.mpr (.inr ⟨'n', by decide, by decide⟩)⟩
  refine ⟨_, parsed, ?readsBack, pattern_text_read_back parsed ?readsBack⟩
  exact List.forall_mem_cons.mpr
    ⟨⟨trivial, plain⟩, List.forall_mem_singleton.mpr ⟨trivial, trivial⟩⟩

end BuiltIn

end Reading

end Destructure
