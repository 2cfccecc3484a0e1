import Destructure.Proofs.Reading.Acceptance
import Destructure.Proofs.Reading.Rendering
import Destructure.Proofs.Value.Parts
import Destructure.Value.Printer

/-!
The text of a value that was read, read again. Everything comes back but for two kinds of atoms:
an infinite number, which a literal may overflow to and which has no literal itself, and a string
with a character that a quotation spells by its code point, because readers know no such escape.
-/

namespace Destructure

open Text Number

namespace Value

variable {α : Type}

inductive IsLiteral [BEq α] (readable : Binary64 → Prop) : Value α → Prop where
  | nil : IsLiteral readable .nil
  | bool (truth : Bool) : IsLiteral readable (.bool truth)
  | int (number : Int64) : IsLiteral readable (.int number)
  | float {number : Binary64} : readable number → IsLiteral readable (.float number)
  | string (text : String) : IsLiteral readable (.string text)
  | symbol {name : String} : IsName name.toList → IsLiteral readable (.symbol name)
  | list {items : List (Value α)} : (∀ item ∈ items, IsLiteral readable item) →
      IsLiteral readable (.list items)
  | map {entries : List (Value α × Value α)} : (∀ entry ∈ entries, IsLiteral readable entry.1) →
      (∀ entry ∈ entries, IsLiteral readable entry.2) → DistinctKeys entries →
      IsLiteral readable (.map entries)
  | record {tag : String} {fields : List (String × Value α)} : IsName tag.toList →
      tag ∉ Reading.literalNames → (∀ field ∈ fields, IsName field.1.toList) →
      (∀ field ∈ fields, IsLiteral readable field.2) → IsLiteral readable (.record tag fields)

def HasLiteral : Value α → Prop
  | .float number => number.IsFinite
  | _ => True

def HasQuotation : Value α → Prop
  | .string text => PlainText text.toList
  | _ => True

def ReadsBack (value : Value α) : Prop := ∀ atom ∈ value.atoms, HasLiteral atom ∧ HasQuotation atom

mutual
def readBack [BEq α] : Value α → Value α
  | .string text => .string (String.ofList (Text.reread text.toList))
  | .list items => .list (readBackItems items)
  | .map entries => mapOf (readBackEntries entries)
  | .record tag fields => .record tag (readBackFields fields)
  | value => value
termination_by structural value => value

def readBackItems [BEq α] : List (Value α) → List (Value α)
  | [] => []
  | item :: items => item.readBack :: readBackItems items
termination_by structural items => items

def readBackEntries [BEq α] : List (Value α × Value α) → List (Value α × Value α)
  | [] => []
  | (key, content) :: entries => (key.readBack, content.readBack) :: readBackEntries entries
termination_by structural entries => entries

def readBackFields [BEq α] : List (String × Value α) → List (String × Value α)
  | [] => []
  | (field, content) :: fields => (field, content.readBack) :: readBackFields fields
termination_by structural fields => fields
end

section Rows

variable [BEq α]

theorem readBackItems_eq (items : List (Value α)) : readBackItems items = items.map readBack := by
  induction items with
  | nil => rfl
  | cons item items induction => rw [readBackItems, induction, List.map_cons]

theorem readBackEntries_eq (entries : List (Value α × Value α)) :
    readBackEntries entries = entries.map fun entry => (entry.1.readBack, entry.2.readBack) := by
  induction entries with
  | nil => rfl
  | cons entry entries induction => rw [readBackEntries, induction, List.map_cons]

theorem readBackFields_eq (fields : List (String × Value α)) :
    readBackFields fields = fields.map fun field => (field.1, field.2.readBack) := by
  induction fields with
  | nil => rfl
  | cons field fields induction => rw [readBackFields, induction, List.map_cons]

end Rows

section Texts

variable [Foreign α]

theorem renderItems_eq (items : List (Value α)) : renderItems items = items.map render := by
  induction items with
  | nil => rfl
  | cons item items induction => rw [renderItems, induction, List.map_cons]

theorem renderEntries_eq (entries : List (Value α × Value α)) :
    renderEntries entries =
      entries.map fun entry => entry.1.render ++ [' ', '=', '>', ' '] ++ entry.2.render := by
  induction entries with
  | nil => rfl
  | cons entry entries induction => rw [renderEntries, induction, List.map_cons, pairText]

theorem renderFields_eq (fields : List (String × Value α)) :
    renderFields fields =
      fields.map fun field => field.1.toList ++ [':', ' '] ++ field.2.render := by
  induction fields with
  | nil => rfl
  | cons field fields induction => rw [renderFields, induction, List.map_cons, pairText]

end Texts

end Value

namespace Reading

open Value

variable {α : Type}

/-! ## What is read -/

section Reading

variable [BEq α]

theorem isLiteral_of_phrase {readable : Binary64 → Prop} (lexemes : List Lexeme) :
    (∀ lexeme ∈ lexemes, lexeme.IsReadable) →
    (∀ number, .float number ∈ lexemes → readable number) →
      ∀ value : Value α, ValuePhrase lexemes value → IsLiteral readable value := by
  induction lexemes using inside_induction with
  | step lexemes induction =>
      intro all numbers value phrase
      have inner : ∀ part value, Inside part lexemes → ValuePhrase part value →
          IsLiteral readable (value : Value α) := by
        intro part value inside holds
        exact induction part inside (fun lexeme member => all lexeme (inside.1.subset member))
          (fun number member => numbers number (inside.1.subset member)) value holds
      cases phrase with
      | nil => exact .nil
      | true => exact .bool true
      | false => exact .bool false
      | int number => exact .int number
      | float number => exact .float (numbers number List.mem_cons_self)
      | string text => exact .string text
      | symbol name => exact .symbol (all _ List.mem_cons_self)
      | list listed =>
          exact .list (listed.forall_mem fun part item within =>
            inner part item (inside_inBrackets _ within))
      | @map _ entries listed =>
          have kept : ∀ entry ∈ tableOf entries, IsLiteral readable entry.1 ∧
              IsLiteral readable entry.2 := by
            refine forall_mem_tableOf _ _ (listed.forall_mem fun part entry within holds => ?_)
            rcases holds with ⟨key, content⟩
            have inside := inside_inBrackets .curly within
            exact ⟨inner _ _ inside.left key, inner _ _ inside.right.tail content⟩
          exact .map (fun entry member => (kept entry member).1)
            (fun entry member => (kept entry member).2) (distinctKeys_tableOf entries)
      | @record _ fields tag free listed =>
          have kept : ∀ field ∈ fields, IsName field.1.toList ∧ IsLiteral readable field.2 := by
            refine listed.forall_mem fun part field within holds => ?_
            rcases holds with ⟨name, content⟩
            have inside := (inside_inBrackets .curly within).cons (.name tag)
            exact ⟨all (.name name) (inside.1.subset List.mem_cons_self),
              inner _ _ inside.tail.tail content⟩
          exact .record (all (.name tag) List.mem_cons_self) free
            (fun field member => (kept field member).1) (fun field member => (kept field member).2)

end Reading

/-! ## The text of a value -/

section Texts

variable [Foreign α] {value : Value α}

omit [Foreign α] in
theorem renders_mapEntry {phrase : List Lexeme → Value α → Prop} {key content : Value α}
    {text others : List Char} (rendersKey : Renders phrase text key)
    (rendersContent : Renders phrase others content) :
    Renders (MapEntryPhrase phrase) (text ++ [' ', '=', '>', ' '] ++ others) (key, content) := by
  rcases rendersKey with ⟨lexemes, holds, spells⟩
  rcases rendersContent with ⟨behind, holdsToo, spellsToo⟩
  exact ⟨_, .intro holds holdsToo, spells.then Lexeme.separates_arrow spellsToo⟩

omit [Foreign α] in
theorem renders_recordField {phrase : List Lexeme → Value α → Prop} {name : String}
    (isName : IsName name.toList) {content : Value α} {text : List Char}
    (renders : Renders phrase text content) :
    Renders (RecordFieldPhrase phrase) (name.toList ++ [':', ' '] ++ text) (name, content) := by
  rcases renders with ⟨lexemes, holds, spells⟩
  have spelled := spells.field isName
  rw [String.ofList_toList] at spelled
  exact ⟨_, .intro name holds, spelled⟩

/-- The text of a value is spelled by a phrase, unless a number in it has no literal. -/
theorem renders_readBack (literal : IsLiteral Lexeme.IsRounded value)
    (finite : ∀ atom ∈ value.atoms, HasLiteral atom) :
    Renders ValuePhrase value.render value.readBack := by
  induction literal with
  | nil => exact ⟨_, .nil, spells_reserved "nil" (by decide)⟩
  | bool truth =>
      cases truth with
      | true => exact ⟨_, .true, spells_reserved "true" (by decide)⟩
      | false => exact ⟨_, .false, spells_reserved "false" (by decide)⟩
  | int number => exact ⟨_, .int number, Lexeme.spells_int number⟩
  | @float number rounded =>
      cases number with
      | finite negative mantissa exponent =>
        exact ⟨_, .float _, Lexeme.spells_float negative rounded⟩
      | infinite negative => exact absurd (finite _ List.mem_cons_self) id
  | string text => exact ⟨_, .string _, Lexeme.spells_quoteText text.toList⟩
  | @symbol name isName =>
      have spells := Lexeme.spells_symbol isName
      rw [String.ofList_toList] at spells
      exact ⟨_, .symbol name, spells⟩
  | list items induction =>
      rw [forall_mem_atoms_list] at finite
      rw [render, renderItems_eq, readBack, readBackItems_eq]
      have row := renders_commaSeparated fun item member =>
        induction item member (finite item member)
      rcases row with ⟨lexemes, listed, spells⟩
      exact ⟨_, .list listed, Lexeme.spells_nil.enclosed .square spells⟩
  | map keys contents distinct induction inductionToo =>
      rw [forall_mem_atoms_map] at finite
      rw [render, renderEntries_eq, readBack, readBackEntries_eq]
      have row := renders_commaSeparated fun entry member =>
        renders_mapEntry (induction entry member (finite entry member).1)
          (inductionToo entry member (finite entry member).2)
      rcases row with ⟨lexemes, listed, spells⟩
      exact ⟨_, .map listed, Lexeme.spells_nil.enclosed .curly spells⟩
  | @record tag fields isName free names contents induction =>
      rw [forall_mem_atoms_record] at finite
      rw [render, renderFields_eq, readBack, readBackFields_eq]
      have row := renders_commaSeparated fun field member =>
        renders_recordField (names field member) (induction field member (finite field member))
      rcases row with ⟨lexemes, listed, spells⟩
      have spelled := (Lexeme.spells_name isName).enclosed .curly spells
      rw [String.ofList_toList] at spelled
      exact ⟨_, .record tag free listed, spelled⟩

/-- No infinite number is read from the text of a value. -/
theorem noInfinity_render (literal : IsLiteral Lexeme.IsRounded value) :
    NoInfinity value.render := by
  induction literal with
  | nil => exact noInfinity_name (isName_of_reserved "nil" (by decide))
  | bool truth =>
      cases truth with
      | true => exact noInfinity_name (isName_of_reserved "true" (by decide))
      | false => exact noInfinity_name (isName_of_reserved "false" (by decide))
  | int number =>
      exact noInfinity_of_spells (Lexeme.spells_int number) fun _ equal => by cases equal
  | @float number rounded =>
      cases number with
      | finite negative mantissa exponent =>
          refine noInfinity_of_spells (Lexeme.spells_float negative rounded) ?_
          intro number equal
          cases equal
          trivial
      | infinite negative =>
          cases negative with
          | true => exact .inl Lexeme.breaks_infinite
          | false =>
              exact noInfinity_of_spells Lexeme.spells_infinite fun _ equal => by cases equal
  | string text =>
      exact noInfinity_of_spells (Lexeme.spells_quoteText text.toList) fun _ equal => by cases equal
  | symbol isName =>
      exact noInfinity_of_spells (Lexeme.spells_symbol isName) fun _ equal => by cases equal
  | @list items literal induction =>
      rw [render, renderItems_eq]
      exact noInfinity_nil.enclosed .square (noInfinity_commaSeparated induction)
  | @map entries keys contents distinct induction inductionToo =>
      rw [render, renderEntries_eq]
      exact noInfinity_nil.enclosed .curly (noInfinity_commaSeparated fun entry member =>
        (induction entry member).then Lexeme.separates_arrow (fun _ equal => by cases equal)
          (inductionToo entry member))
  | @record tag fields isName free names contents induction =>
      rw [render, renderFields_eq]
      exact (noInfinity_name isName).enclosed .curly (noInfinity_commaSeparated fun field member =>
        (induction field member).field (names field member))

end Texts

/-! ## Reading back -/

section Equality

variable [BEq α] {readable : Binary64 → Prop} {value : Value α}

theorem beq_self (literal : IsLiteral readable value) : value == value := by
  induction literal with
  | nil => rfl
  | bool truth => exact beq_self_eq_true truth
  | int number => exact beq_self_eq_true number
  | @float number readable => cases number <;> simp [beq_eq, equals, Binary64.equals]
  | string text => exact beq_self_eq_true text
  | @symbol name isName => exact beq_self_eq_true name
  | list items induction => exact itemsEqual_iff.mpr (List.forall₂_same.mpr induction)
  | map keys contents distinct induction inductionToo =>
      exact entriesEqual_iff.mpr (List.forall₂_same.mpr fun entry member =>
        ⟨induction entry member, inductionToo entry member⟩)
  | record isName free names contents induction =>
      rw [beq_eq, equals, beq_self_eq_true, Bool.true_and]
      exact fieldsEqual_iff.mpr (List.forall₂_same.mpr fun field member =>
        ⟨rfl, induction field member⟩)

/-- Numbers that equal finite numbers are finite. -/
theorem hasLiteral_of_beq {again : Value α} (finite : IsLiteral Binary64.IsFinite again)
    (literal : IsLiteral readable value) (equal : again == value) :
    ∀ atom ∈ value.atoms, HasLiteral atom := by
  induction literal generalizing again with
  | @float number readable =>
      refine List.forall_mem_singleton.mpr ?_
      cases finite with
      | @float other finite =>
          cases other with
          | finite =>
              cases number with
              | finite => trivial
              | infinite => cases equal
          | infinite => exact absurd finite id
      | _ => cases equal
  | list items induction =>
      rcases exists_of_beq_list equal with ⟨firsts, rfl, related⟩
      cases finite with
      | list finite =>
          rw [forall_mem_atoms_list]
          exact forall_mem_of_forall₂ related finite fun first finite second member equal =>
            induction second member finite equal
  | map keys contents distinct induction inductionToo =>
      rcases exists_of_beq_map equal with ⟨firsts, rfl, related⟩
      cases finite with
      | map finiteKeys finiteContents distinct =>
          rw [forall_mem_atoms_map]
          exact forall_mem_of_forall₂ related
            (fun first member => And.intro (finiteKeys first member) (finiteContents first member))
            fun first finite second member equal =>
              ⟨induction second member finite.1 equal.1,
                inductionToo second member finite.2 equal.2⟩
  | record isName free names contents induction =>
      rcases exists_of_beq_record equal with ⟨firsts, rfl, related⟩
      cases finite with
      | record isName free names finite =>
          rw [forall_mem_atoms_record]
          exact forall_mem_of_forall₂ related finite fun first finite second member equal =>
            induction second member finite equal.2
  | _ => exact List.forall_mem_singleton.mpr trivial

theorem readBack_eq (literal : IsLiteral readable value)
    (plain : ∀ atom ∈ value.atoms, HasQuotation atom) : value.readBack = value := by
  induction literal with
  | string text =>
      have same := (reread_eq_iff text.toList).mpr (plain _ List.mem_cons_self)
      rw [readBack, same, String.ofList_toList]
  | @list items literal induction =>
      rw [forall_mem_atoms_list] at plain
      have same : items.map readBack = items.map id :=
        List.map_congr_left fun item member => induction item member (plain item member)
      rw [readBack, readBackItems_eq, same, List.map_id]
  | @map entries keys contents distinct induction inductionToo =>
      rw [forall_mem_atoms_map] at plain
      have same : (entries.map fun entry => (entry.1.readBack, entry.2.readBack)) =
          entries.map id := by
        refine List.map_congr_left fun entry member => ?_
        rw [induction entry member (plain entry member).1,
          inductionToo entry member (plain entry member).2]
        rfl
      rw [readBack, readBackEntries_eq, same, List.map_id, mapOf_eq,
        tableOf_of_distinctKeys distinct]
  | @record tag fields isName free names contents induction =>
      rw [forall_mem_atoms_record] at plain
      have same : (fields.map fun field => (field.1, field.2.readBack)) = fields.map id := by
        refine List.map_congr_left fun field member => ?_
        rw [induction field member (plain field member)]
        rfl
      rw [readBack, readBackFields_eq, same, List.map_id]
  | _ => rfl

theorem hasQuotation_of_beq (literal : IsLiteral readable value)
    (equal : value.readBack == value) : ∀ atom ∈ value.atoms, HasQuotation atom := by
  induction literal with
  | string text =>
      refine List.forall_mem_singleton.mpr ((reread_eq_iff text.toList).mp ?_)
      have same : String.ofList (Text.reread text.toList) = text := eq_of_beq equal
      rw [← String.toList_ofList (l := Text.reread text.toList), same]
  | @list items literal induction =>
      rw [readBack, readBackItems_eq] at equal
      have related := itemsEqual_iff.mp equal
      rw [List.forall₂_map_left_iff, List.forall₂_same] at related
      rw [forall_mem_atoms_list]
      exact fun item member => induction item member (related item member)
  | @map entries keys contents distinct induction inductionToo =>
      rw [readBack, readBackEntries_eq, mapOf_eq] at equal
      have related := entriesEqual_iff.mp equal
      rw [tableOf_of_length (by rw [related.length_eq, List.length_map]),
        List.forall₂_map_left_iff, List.forall₂_same] at related
      rw [forall_mem_atoms_map]
      exact fun entry member => ⟨induction entry member (related entry member).1,
        inductionToo entry member (related entry member).2⟩
  | @record tag fields isName free names contents induction =>
      rw [readBack, readBackFields_eq, beq_eq, equals, Bool.and_eq_true, fieldsEqual_iff,
        List.forall₂_map_left_iff, List.forall₂_same] at equal
      rw [forall_mem_atoms_record]
      exact fun field member => induction field member (equal.2 field member).2
  | _ => exact List.forall_mem_singleton.mpr trivial

end Equality

section Main

variable [Foreign α]

theorem parse_value_iff {source : String} {value : Value α} :
    Value.parse source = .ok value ↔
      ∃ tokens, Token.scan source.toList = .ok tokens ∧
        ValuePhrase (tokens.map Token.lexeme) value :=
  readAll_eq_ok_iff readWhole_value_iff source value

theorem isLiteral_of_parse {source : String} {value : Value α}
    (parsed : Value.parse source = .ok value) : IsLiteral Lexeme.IsRounded value := by
  rcases parse_value_iff.mp parsed with ⟨tokens, scanned, phrase⟩
  have readable := Token.scan_isReadable scanned
  exact isLiteral_of_phrase _ readable
    (fun number member => readable (.float number) member) _ phrase

theorem parse_text_eq {value : Value α} (literal : IsLiteral Lexeme.IsRounded value)
    (finite : ∀ atom ∈ value.atoms, HasLiteral atom) :
    Value.parse value.text = .ok value.readBack :=
  readAll_of_renders readWhole_value_iff (renders_readBack literal finite)

theorem hasLiteral_of_parse_text {value again : Value α}
    (literal : IsLiteral Lexeme.IsRounded value) (parsed : Value.parse value.text = .ok again)
    (equal : again == value) : ∀ atom ∈ value.atoms, HasLiteral atom := by
  rcases parse_value_iff.mp parsed with ⟨tokens, scanned, phrase⟩
  have readable := Token.scan_isReadable scanned
  rw [Value.text, String.toList_ofList] at scanned
  have finite := scan_of_noInfinity (noInfinity_render literal) scanned
  exact hasLiteral_of_beq (isLiteral_of_phrase _ readable finite _ phrase) literal equal

theorem readsBack_of_parse_text {value again : Value α}
    (literal : IsLiteral Lexeme.IsRounded value) (parsed : Value.parse value.text = .ok again)
    (equal : again == value) : value.ReadsBack := by
  have finite := hasLiteral_of_parse_text literal parsed equal
  rw [parse_text_eq literal finite] at parsed
  cases parsed
  exact fun atom member => ⟨finite atom member, hasQuotation_of_beq literal equal atom member⟩

/-- A value that was read is read again from its text exactly if no number in it is infinite and no
string in it is spelled with code points. Otherwise the text is not read at all, or as a value that
is not equal. -/
theorem text_read_back_iff {source : String} {value : Value α}
    (parsed : Value.parse source = .ok value) :
    (Value.parse value.text = .ok value ↔ value.ReadsBack) ∧
      ((∃ again, Value.parse value.text = .ok again ∧ again == value) ↔ value.ReadsBack) := by
  have literal := isLiteral_of_parse parsed
  have back : value.ReadsBack → Value.parse value.text = .ok value := by
    intro readsBack
    rw [parse_text_eq literal fun atom member => (readsBack atom member).1,
      readBack_eq literal fun atom member => (readsBack atom member).2]
  constructor
  · exact ⟨fun parsedToo => readsBack_of_parse_text literal parsedToo (beq_self literal), back⟩
  · constructor
    · rintro ⟨again, parsedToo, equal⟩
      exact readsBack_of_parse_text literal parsedToo equal
    · exact fun readsBack => ⟨value, back readsBack, beq_self literal⟩

theorem line_break_read_back :
    ∃ value : Value Empty, Value.parse "[\"\\n\", :a]" = .ok value ∧ value.ReadsBack ∧
      Value.parse value.text = .ok value := by
  have parsed : (Value.parse "[\"\\n\", :a]" : Except ReadFailure (Value Empty)) =
      .ok (.list [.string "\n", .symbol "a"]) := rfl
  have plain : PlainText ['\n'] := ⟨.inr ⟨'n', by decide, by decide⟩, List.forall_mem_nil _⟩
  refine ⟨_, parsed, ?readsBack, (text_read_back_iff parsed).1.mpr ?readsBack⟩
  exact List.forall_mem_cons.mpr
    ⟨⟨trivial, plain⟩, List.forall_mem_singleton.mpr ⟨trivial, trivial⟩⟩

/-- A character that cannot be seen is written by its code point, and read as a word. -/
theorem zero_width_space_read_as_word :
    (Value.parse "\"\u200b\"" : Except ReadFailure (Value Empty)) = .ok (.string "\u200b") ∧
    Value.parse (Value.text (.string "\u200b" : Value Empty)) =
      .ok (.string "u\x7b200b\x7d" : Value Empty) ∧
    ((.string "u\x7b200b\x7d" : Value Empty) == .string "\u200b") = false := by
  have literal : IsLiteral Lexeme.IsRounded (.string "\u200b" : Value Empty) := .string _
  have again : (.string "\u200b" : Value Empty).readBack = .string "u\x7b200b\x7d" :=
    congrArg Value.string (by decide +kernel)
  refine ⟨rfl, ?_, rfl⟩
  rw [← again]
  exact parse_text_eq literal (List.forall_mem_singleton.mpr trivial)

end Main

end Reading

end Destructure
