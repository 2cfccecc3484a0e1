import Destructure.Proofs.Matching.BoundNames
import Destructure.Proofs.Matching.Tests
import Destructure.Proofs.Reading.ValueText
import Destructure.Proofs.Value.Equality
import Destructure.Regex.Search

/-!
The text of a value read as a pattern. Atoms are literals of both grammars; a list becomes a
deconstruction, and maps and records become lookups of what they hold, so that the pattern is
well-formed where no table is empty and none holds a key or a field twice.
-/

namespace Destructure

variable {α : Type}

namespace Value

mutual
def asPattern : Value α → Pattern α
  | .list items => .list (asPatterns items)
  | .map entries => .keyed .map (asMapEntries entries)
  | .record tag fields => .keyed (.record tag) (asRecordEntries fields)
  | value => .literal value
termination_by structural value => value

def asPatterns : List (Value α) → List (Pattern α)
  | [] => []
  | item :: items => item.asPattern :: asPatterns items
termination_by structural items => items

def asMapEntries : List (Value α × Value α) → List (Value α × Pattern α)
  | [] => []
  | (key, content) :: entries => (key, content.asPattern) :: asMapEntries entries
termination_by structural entries => entries

def asRecordEntries : List (String × Value α) → List (Value α × Pattern α)
  | [] => []
  | (name, content) :: fields => (.symbol name, content.asPattern) :: asRecordEntries fields
termination_by structural fields => fields
end

theorem asPatterns_eq (items : List (Value α)) : asPatterns items = items.map asPattern := by
  induction items with
  | nil => rfl
  | cons item items induction => rw [asPatterns, induction, List.map_cons]

theorem asMapEntries_eq (entries : List (Value α × Value α)) :
    asMapEntries entries = entries.map fun entry => (entry.1, entry.2.asPattern) := by
  induction entries with
  | nil => rfl
  | cons entry entries induction => rw [asMapEntries, induction, List.map_cons]

theorem asRecordEntries_eq (fields : List (String × Value α)) :
    asRecordEntries fields = fields.map fun field => (.symbol field.1, field.2.asPattern) := by
  induction fields with
  | nil => rfl
  | cons field fields induction => rw [asRecordEntries, induction, List.map_cons]

end Value

/-! ## What a table holds -/

section Tables

variable [BEq α]

theorem mapM_eq_some {Item Result : Type} {find : Item → Option Result} {result : Item → Result}
    {items : List Item} (found : ∀ item ∈ items, find item = some (result item)) :
    items.mapM find = some (items.map result) := by
  induction items with
  | nil => rfl
  | cons item items induction =>
      rcases List.forall_mem_cons.mp found with ⟨here, later⟩
      rw [List.mapM_cons, here, induction later]
      rfl

/-- A map holds under each of its keys what is there, if none comes twice. -/
theorem Value.get?_of_mem {entries : List (Value α × Value α)} (distinct : DistinctKeys entries)
    (equal : ∀ entry ∈ entries, entry.1 == entry.1) :
    ∀ entry ∈ entries, (Value.map entries).get? entry.1 = some entry.2 := by
  induction distinct with
  | nil => exact List.forall_mem_nil _
  | @cons first others apart distinct induction =>
      rcases List.forall_mem_cons.mp equal with ⟨here, later⟩
      refine List.forall_mem_cons.mpr ⟨?_, fun entry member => ?_⟩
      · rw [get?, List.find?_cons, here]
        rfl
      · rw [get?, List.find?_cons, apart entry member]
        exact induction later entry member

omit [BEq α] in
theorem Value.fieldOf?_of_mem {fields : List (String × Value α)}
    (distinct : (fields.map Prod.fst).Nodup) :
    ∀ field ∈ fields, fieldOf? field.1 fields = some field.2 := by
  induction fields with
  | nil => exact List.forall_mem_nil _
  | cons first others induction =>
      rcases List.nodup_cons.mp distinct with ⟨absent, distinct⟩
      refine List.forall_mem_cons.mpr ⟨?_, fun field member => ?_⟩
      · rw [fieldOf?, List.find?_cons, beq_self_eq_true]
        rfl
      · have other : first.1 ≠ field.1 := fun same => absent (same ▸ List.mem_map_of_mem member)
        rw [fieldOf?, List.find?_cons, beq_eq_false_iff_ne.mpr other]
        exact induction distinct field member

theorem KeyedShape.lookup?_map {entries : List (Value α × Value α)}
    (distinct : Value.DistinctKeys entries) (equal : ∀ entry ∈ entries, entry.1 == entry.1) :
    KeyedShape.map.lookup? (entries.map Prod.fst) (.map entries) =
      some (entries.map Prod.snd) := by
  rw [lookup?, List.mapM_map]
  exact mapM_eq_some (Value.get?_of_mem distinct equal)

theorem KeyedShape.lookup?_record (tag : String) {fields : List (String × Value α)}
    (distinct : (fields.map Prod.fst).Nodup) :
    (KeyedShape.record tag).lookup? (fields.map fun field => .symbol field.1) (.record tag fields) =
      some (fields.map Prod.snd) := by
  rw [lookup?, if_pos rfl, List.mapM_map]
  exact mapM_eq_some (Value.fieldOf?_of_mem distinct)

theorem KeyedShape.admits_map {entries : List (Value α × Value α)} (some : entries ≠ [])
    (distinct : Value.DistinctKeys entries) : KeyedShape.map.Admits (entries.map Prod.fst) :=
  ⟨by simpa using some, List.pairwise_map.mpr distinct, fun _ isRecord => by cases isRecord⟩

theorem KeyedShape.admits_record (tag : String) {fields : List (String × Value α)}
    (some : fields ≠ []) (distinct : (fields.map Prod.fst).Nodup) :
    (KeyedShape.record tag).Admits (fields.map fun field => (.symbol field.1 : Value α)) := by
  have apart : fields.Pairwise fun field field' => field.1 ≠ field'.1 :=
    List.pairwise_map.mp distinct
  refine ⟨by simpa using some, List.pairwise_map.mpr (apart.imp fun different => ?_), ?_⟩
  · rw [Value.beq_eq, Value.equals, beq_eq_false_iff_ne]
    exact different
  · rintro _ -
    constructor
    · exact List.forall_mem_map.mpr fun _ _ => rfl
    · exact List.pairwise_map.mpr (apart.imp fun different same => different (Option.some.inj same))

end Tables

namespace Reading

open Value

theorem Listed.imp {Result : Type} {item itemToo : List Lexeme → Result → Prop}
    {lexemes : List Lexeme} {results : List Result} (listed : Listed item lexemes results)
    (implies : ∀ part result, part <:+: lexemes → item part result → itemToo part result) :
    Listed itemToo lexemes results := by
  induction listed with
  | none => exact .none
  | last here => exact .last (implies _ _ (List.infix_refl _) here)
  | @cons first result others results here _ induction =>
      have inside : others <:+: first ++ .comma :: others :=
        ((List.suffix_cons _ _).trans (List.suffix_append _ _)).isInfix
      refine .cons (implies _ _ (List.prefix_append _ _).isInfix here) ?_
      exact induction fun part result within => implies part result (within.trans inside)

theorem Listed.map {Result Other : Type} {item : List Lexeme → Other → Prop}
    {change : Result → Other} {lexemes : List Lexeme} {results : List Result}
    (listed : Listed (fun part result => item part (change result)) lexemes results) :
    Listed item lexemes (results.map change) := by
  induction listed with
  | none => exact .none
  | last here => exact .last here
  | cons here _ induction => exact .cons here induction

theorem forall_mem_mapEntries {item : List Lexeme → Value α → Prop} {property : Value α → Prop}
    {lexemes : List Lexeme} {entries : List (Value α × Value α)}
    (listed : Listed (MapEntryPhrase item) lexemes entries)
    (holds : ∀ part content, item part content → property content) :
    ∀ entry ∈ entries, property entry.2 := by
  refine listed.forall_mem fun part entry _ phrase => ?_
  rcases phrase with ⟨key, content⟩
  exact holds _ _ content

theorem forall_mem_recordFields {item : List Lexeme → Value α → Prop} {property : Value α → Prop}
    {lexemes : List Lexeme} {fields : List (String × Value α)}
    (listed : Listed (RecordFieldPhrase item) lexemes fields)
    (holds : ∀ part content, item part content → property content) :
    ∀ field ∈ fields, property field.2 := by
  refine listed.forall_mem fun part field _ phrase => ?_
  rcases phrase with ⟨name, content⟩
  exact holds _ _ content

/-! ## Tidy phrases -/

/-- The phrase of a value in which no map and no record is empty, no map repeats a key and no
record a field. -/
inductive TidyPhrase [BEq α] : List Lexeme → Value α → Prop where
  | atom {lexeme value} : ValuePhrase [lexeme] value → TidyPhrase [lexeme] value
  | list {lexemes items} : Listed TidyPhrase lexemes items →
      TidyPhrase (inBrackets .square lexemes) (.list items)
  | map {lexemes entries} : Listed (MapEntryPhrase TidyPhrase) lexemes entries → entries ≠ [] →
      DistinctKeys entries → TidyPhrase (inBrackets .curly lexemes) (.map entries)
  | record {lexemes fields} (tag : String) : tag ∉ literalNames →
      Listed (RecordFieldPhrase TidyPhrase) lexemes fields → fields ≠ [] →
      (fields.map Prod.fst).Nodup →
      TidyPhrase (.name tag :: inBrackets .curly lexemes) (.record tag fields)

section

variable [BEq α] {lexemes : List Lexeme} {value : Value α}

/-- What holds of atoms and of what is made of tidy phrases for which it holds, holds of all tidy
phrases. -/
@[elab_as_elim]
theorem TidyPhrase.induction {motive : List Lexeme → Value α → Prop}
    (atom : ∀ lexeme value, ValuePhrase [lexeme] value → motive [lexeme] value)
    (list : ∀ lexemes items, Listed (fun part item => TidyPhrase part item ∧ motive part item)
      lexemes items → motive (inBrackets .square lexemes) (.list items))
    (map : ∀ lexemes entries,
      Listed (MapEntryPhrase fun part value => TidyPhrase part value ∧ motive part value)
        lexemes entries → entries ≠ [] → DistinctKeys entries →
      motive (inBrackets .curly lexemes) (.map entries))
    (record : ∀ lexemes fields tag, tag ∉ literalNames →
      Listed (RecordFieldPhrase fun part value => TidyPhrase part value ∧ motive part value)
        lexemes fields → fields ≠ [] → (fields.map Prod.fst).Nodup →
      motive (.name tag :: inBrackets .curly lexemes) (.record tag fields))
    (phrase : TidyPhrase lexemes value) : motive lexemes value := by
  induction lexemes using inside_induction generalizing value with
  | step lexemes induction =>
      cases phrase with
      | atom phrase => exact atom _ _ phrase
      | list listed =>
          refine list _ _ (listed.imp fun part item within phrase => ⟨phrase, ?_⟩)
          exact induction part (inside_inBrackets _ within) phrase
      | map listed some distinct =>
          refine map _ _ (listed.imp fun part entry within phrase => ?_) some distinct
          rcases phrase with ⟨key, content⟩
          have inside := inside_inBrackets .curly within
          exact .intro ⟨key, induction _ inside.left key⟩
            ⟨content, induction _ inside.right.tail content⟩
      | record tag free listed some distinct =>
          refine record _ _ tag free (listed.imp fun part field within phrase => ?_) some distinct
          rcases phrase with ⟨name, content⟩
          have inside := (inside_inBrackets .curly within).cons (.name tag)
          exact .intro name ⟨content, induction _ inside.tail.tail content⟩

/-! ## What is read -/

theorem TidyPhrase.valuePhrase (phrase : TidyPhrase lexemes value) :
    ValuePhrase lexemes value := by
  refine TidyPhrase.induction ?atom ?list ?map ?record phrase
  case atom => exact fun _ _ phrase => phrase
  case list => exact fun _ _ listed => .list (listed.imp fun _ _ _ item => item.2)
  case map =>
    intro lexemes entries listed some distinct
    rw [← tableOf_of_distinctKeys distinct, ← mapOf_eq]
    refine .map (listed.imp fun part entry _ phrase => ?_)
    rcases phrase with ⟨key, content⟩
    exact .intro key.2 content.2
  case record =>
    intro lexemes fields tag free listed some distinct
    refine .record tag free (listed.imp fun part field _ phrase => ?_)
    rcases phrase with ⟨name, content⟩
    exact .intro name content.2

theorem PrimaryPhrase.patternPhrase [Regex.Engine] {pattern : Pattern α}
    (phrase : PrimaryPhrase lexemes pattern) : PatternPhrase lexemes pattern :=
  .alone (.alone (.alone phrase))

theorem ValuePhrase.asPattern_eq {lexeme : Lexeme} (phrase : ValuePhrase [lexeme] value) :
    value.asPattern = .literal value := by
  generalize single : [lexeme] = lexemes at phrase
  cases phrase with
  | list listed => simp [inBrackets] at single
  | map listed => simp [inBrackets] at single
  | record tag free listed => simp [inBrackets] at single
  | _ => rfl

theorem ValuePhrase.primaryPhrase [Regex.Engine] {lexeme : Lexeme}
    (phrase : ValuePhrase [lexeme] value) : PrimaryPhrase [lexeme] (.literal value) := by
  generalize single : [lexeme] = lexemes at phrase ⊢
  cases phrase with
  | int number => exact .literal (.int number)
  | float number => exact .literal (.float number)
  | string text => exact .literal (.string text)
  | symbol name => exact .literal (.symbol name)
  | nil => exact .name .nil
  | true => exact .name .true
  | false => exact .name .false
  | list listed => simp [inBrackets] at single
  | map listed => simp [inBrackets] at single
  | record tag free listed => simp [inBrackets] at single

/-- The lexemes of a value are those of its pattern. -/
theorem TidyPhrase.patternPhrase [Regex.Engine] (phrase : TidyPhrase lexemes value) :
    PatternPhrase lexemes value.asPattern := by
  refine TidyPhrase.induction ?atom ?list ?map ?record phrase
  case atom =>
    intro lexeme value phrase
    rw [phrase.asPattern_eq]
    exact phrase.primaryPhrase.patternPhrase
  case list =>
    intro lexemes items listed
    rw [asPattern, asPatterns_eq]
    exact (PrimaryPhrase.list (listed.imp fun _ _ _ item => item.2).map).patternPhrase
  case map =>
    intro lexemes entries listed some distinct
    rw [asPattern, asMapEntries_eq]
    refine (PrimaryPhrase.map (listed.imp fun part entry _ phrase => ?_).map).patternPhrase
    rcases phrase with ⟨key, content⟩
    exact .full key.1.valuePhrase content.2
  case record =>
    intro lexemes fields tag free listed some distinct
    rw [asPattern, asRecordEntries_eq]
    refine (PrimaryPhrase.record tag (listed.imp fun part field _ phrase => ?_).map).patternPhrase
    rcases phrase with ⟨name, content⟩
    exact .full name content.2

/-! ## What is matched -/

open Pattern

theorem isTest_literal (registry : Registry α) (value : Value α) :
    IsTest registry (.literal value) :=
  isTest_of_parts rfl rfl (fun _ isNamed => by cases isNamed) trivial (List.forall_mem_nil _)

section Tables

variable {Row : Type} {shape : KeyedShape} {rows : List Row} {key content : Row → Value α}
variable (tests : ∀ row ∈ rows, IsTest .standard (content row).asPattern)
include tests

theorem isTest_table (admits : shape.Admits (rows.map key)) :
    IsTest .standard (.keyed shape (rows.map fun row => (key row, (content row).asPattern))) := by
  refine isTest_of_parts rfl rfl (fun _ isNamed => by cases isNamed) ?_ ?_
  · rw [Filled, List.map_map]
    exact admits
  · rw [parts, List.map_map]
    exact List.forall_mem_map.mpr tests

/-- What a value holds under the keys is matched, so the value is. -/
theorem holds_table {greed : Greed} (found : shape.lookup? (rows.map key) value =
      some (rows.map content))
    (holds : ∀ row ∈ rows, (content row).asPattern.Holds .standard greed (content row)) :
    (keyed shape (rows.map fun row => (key row, (content row).asPattern))).Holds .standard greed
      value := by
  rw [holds_keyed (by rw [List.map_map]; exact List.forall_mem_map.mpr tests), List.map_map,
    List.map_map]
  refine ⟨_, found, ?_⟩
  rw [List.forall₂_map_left_iff, List.forall₂_map_right_iff, List.forall₂_same]
  exact holds

end Tables

theorem isTest_asPattern (phrase : TidyPhrase lexemes value) :
    IsTest .standard value.asPattern := by
  refine TidyPhrase.induction ?atom ?list ?map ?record phrase
  case atom =>
    intro lexeme value phrase
    rw [phrase.asPattern_eq]
    exact isTest_literal _ value
  case list =>
    intro lexemes items listed
    rw [asPattern, asPatterns_eq]
    refine isTest_of_parts rfl rfl ?_ trivial ?_
    · rintro name ⟨⟩
      rfl
    · exact List.forall_mem_map.mpr (listed.forall_mem fun _ _ _ item => item.2)
  case map =>
    intro lexemes entries listed some distinct
    rw [asPattern, asMapEntries_eq]
    exact isTest_table (forall_mem_mapEntries listed fun _ _ content => content.2)
      (KeyedShape.admits_map some distinct)
  case record =>
    intro lexemes fields tag free listed some distinct
    rw [asPattern, asRecordEntries_eq]
    exact isTest_table (forall_mem_recordFields listed fun _ _ content => content.2)
      (KeyedShape.admits_record tag some distinct)

variable {greed : Greed}

theorem holds_literal {registry : Registry α} {other : Value α} :
    (literal value).Holds registry greed other ↔ value == other := by
  rw [Holds, itemWays]
  split <;> simp_all

theorem holds_list {items : List (Value α)} {other : Value α}
    (tests : ∀ item ∈ items, IsTest .standard item.asPattern) :
    (Value.list items).asPattern.Holds .standard greed other ↔
      ∃ others, other = .list others ∧
        List.Forall₂ (fun item other => item.asPattern.Holds .standard greed other)
          items others := by
  rw [asPattern, asPatterns_eq, Pattern.list, holds_deconstruct (List.forall_mem_map.mpr tests)]
  simp only [List.forall₂_map_left_iff]
  constructor
  · rintro ⟨parts, decomposed, related⟩
    cases other <;> cases decomposed
    exact ⟨_, rfl, related⟩
  · rintro ⟨others, rfl, related⟩
    exact ⟨others, rfl, related⟩

/-- A value that was read is matched by its pattern. -/
theorem holds_asPattern {readable : Number.Binary64 → Prop} (phrase : TidyPhrase lexemes value)
    (literal : IsLiteral readable value) : value.asPattern.Holds .standard greed value := by
  revert literal
  refine TidyPhrase.induction ?atom ?list ?map ?record phrase
  case atom =>
    intro lexeme value phrase literal
    rw [phrase.asPattern_eq, holds_literal]
    exact beq_self literal
  case list =>
    intro lexemes items listed literal
    cases literal with
    | list literal =>
        have holds := listed.forall_mem fun _ item _ phrase => phrase.2
        rw [holds_list (listed.forall_mem fun _ _ _ phrase => isTest_asPattern phrase.1)]
        exact ⟨items, rfl, List.forall₂_same.mpr fun item member =>
          holds item member (literal item member)⟩
  case map =>
    intro lexemes entries listed some distinct literal
    cases literal with
    | map keys contents =>
        have holds := forall_mem_mapEntries listed fun _ _ content => content.2
        rw [asPattern, asMapEntries_eq]
        exact holds_table
          (forall_mem_mapEntries listed fun _ _ content => isTest_asPattern content.1)
          (KeyedShape.lookup?_map distinct fun entry member => beq_self (keys entry member))
          fun entry member => holds entry member (contents entry member)
  case record =>
    intro lexemes fields tag free listed some distinct literal
    cases literal with
    | record isName free names contents =>
        have holds := forall_mem_recordFields listed fun _ _ content => content.2
        rw [asPattern, asRecordEntries_eq]
        exact holds_table
          (forall_mem_recordFields listed fun _ _ content => isTest_asPattern content.1)
          (KeyedShape.lookup?_record tag distinct)
          fun field member => holds field member (contents field member)

theorem ValuePhrase.beq_comm {lexeme : Lexeme} (phrase : ValuePhrase [lexeme] value)
    (other : Value α) : (value == other) = (other == value) := by
  generalize single : [lexeme] = lexemes at phrase
  cases phrase with
  | list listed => simp [inBrackets] at single
  | map listed => simp [inBrackets] at single
  | record tag free listed => simp [inBrackets] at single
  | _ => cases other <;> simp [beq_eq, equals, Bool.beq_comm, Number.Binary64.equals_comm]

theorem forall₂_iff_beq {holds : Value α → Value α → Prop} {items : List (Value α)}
    (same : ∀ item ∈ items, ∀ other, holds item other ↔ other == item) (others : List (Value α)) :
    List.Forall₂ holds items others ↔ Value.list others == .list items := by
  rw [beq_eq, equals, itemsEqual_iff]
  induction items generalizing others with
  | nil => simp
  | cons item items induction =>
      rcases List.forall_mem_cons.mp same with ⟨here, later⟩
      cases others with
      | nil => simp
      | cons other others => rw [List.forall₂_cons, List.forall₂_cons, here, induction later]

/-- Without tables a pattern that is a value matches nothing else. -/
theorem holds_asPattern_iff (phrase : TidyPhrase lexemes value)
    (tableless : .opening .curly ∉ lexemes) :
    ∀ other, value.asPattern.Holds .standard greed other ↔ other == value := by
  revert tableless
  refine TidyPhrase.induction ?atom ?list ?map ?record phrase
  case atom =>
    intro lexeme value phrase _ other
    rw [phrase.asPattern_eq, holds_literal, phrase.beq_comm]
  case list =>
    intro lexemes items listed tableless other
    rw [holds_list (listed.forall_mem fun _ _ _ phrase => isTest_asPattern phrase.1)]
    have same : ∀ item ∈ items, ∀ other,
        item.asPattern.Holds .standard greed other ↔ other == item := by
      refine listed.forall_mem fun part item within phrase => phrase.2 fun member => tableless ?_
      exact (inside_inBrackets .square within).1.subset member
    simp only [forall₂_iff_beq same]
    constructor
    · rintro ⟨others, rfl, equal⟩
      exact equal
    · intro equal
      rcases exists_of_beq_list equal with ⟨others, rfl, -⟩
      exact ⟨others, rfl, equal⟩
  case map =>
    intro lexemes entries _ _ _ tableless
    exact absurd List.mem_cons_self tableless
  case record =>
    intro lexemes fields tag _ _ _ _ tableless
    exact absurd (List.mem_cons_of_mem _ List.mem_cons_self) tableless

end

/-! ## The text of a value as a pattern -/

/-- The text of a value is a pattern for it, if no map or record in the text is empty and none has
a key or a field twice. The pattern compiles whatever the options are, binds nothing and matches the
value; and if there are no maps and records in the text, it matches only what equals the value. -/
theorem value_text_matches_value [Regex.Engine] [BEq α] {source : String} {value : Value α}
    (parsed : Value.parse source = .ok value)
    (tidy : ∀ tokens, Token.scan source.toList = .ok tokens →
      TidyPhrase (tokens.map Token.lexeme) value) (options : Options) :
    ∃ pattern matcher, Pattern.parse source = .ok pattern ∧
      Matcher.compile pattern .standard options = .ok matcher ∧ matcher.variableNames = [] ∧
      matcher.isMatch value ∧
      ((∀ tokens, Token.scan source.toList = .ok tokens →
          .opening .curly ∉ tokens.map Token.lexeme) →
        ∀ other, matcher.isMatch other ↔ other == value) := by
  rcases (readAll_eq_ok_iff readWhole_value_iff source value).mp parsed with ⟨tokens, scanned, -⟩
  have tidy := tidy tokens scanned
  have test := isTest_asPattern tidy
  have parsedToo := (readAll_eq_ok_iff readWhole_pattern_iff source value.asPattern).mpr
    ⟨tokens, scanned, tidy.patternPhrase⟩
  rcases test.decides options with ⟨matcher, compiled, isMatch⟩
  refine ⟨value.asPattern, matcher, parsedToo, compiled, ?_, ?_, ?_⟩
  · rw [(Matcher.compiled_of_compile compiled).variableNames_eq, test.silent.unbound]
    rfl
  · have readable := Token.scan_isReadable scanned
    rw [isMatch]
    exact holds_asPattern tidy (isLiteral_of_phrase _ readable
      (fun number member => readable (.float number) member) _ tidy.valuePhrase)
  · intro tableless other
    rw [isMatch, holds_asPattern_iff tidy (tableless tokens scanned)]

section BuiltIn

attribute [local instance] Regex.Engine.builtIn

theorem nested_text_matches_value : ∃ value : Value Empty,
    Value.parse "[Point\x7bx: [nil]\x7d, -1]" = .ok value ∧
    ∃ pattern matcher, Pattern.parse "[Point\x7bx: [nil]\x7d, -1]" = .ok pattern ∧
      Matcher.compile pattern .standard {} = .ok matcher ∧ matcher.isMatch value := by
  have parsed : (Value.parse "[Point\x7bx: [nil]\x7d, -1]" : Except ReadFailure (Value Empty)) =
      .ok (.list [.record "Point" [("x", .list [.nil])], .int (-1)]) := rfl
  have tidy : ∀ tokens, Token.scan "[Point\x7bx: [nil]\x7d, -1]".toList = .ok tokens →
      TidyPhrase (tokens.map Token.lexeme)
        (.list [.record "Point" [("x", .list [.nil])], .int (-1)] : Value Empty) := by
    rintro tokens ⟨⟩
    have point : TidyPhrase _ (.record "Point" [("x", .list [.nil])] : Value Empty) :=
      .record "Point" (by decide) (.last (.intro "x" (.list (.last (.atom .nil)))))
        (List.cons_ne_nil _ _) (List.nodup_singleton _)
    exact .list (.cons point (.last (.atom (.int (-1)))))
  rcases value_text_matches_value parsed tidy {} with
    ⟨pattern, matcher, parsedToo, compiled, -, isMatch, -⟩
  exact ⟨_, parsed, pattern, matcher, parsedToo, compiled, isMatch⟩

end BuiltIn

end Reading

end Destructure
