import Destructure.Reading.Pattern

/-!
The grammars of values and of patterns. A phrase is a row of lexemes together with what it stands
for. Each relation lists the productions of one kind of phrase; none of them knows about reading
from left to right, about allowances or about where a reader gives up.
-/

namespace Destructure.Reading

variable {α Result : Type}

def inBrackets (bracket : Bracket) (lexemes : List Lexeme) : List Lexeme :=
  .opening bracket :: (lexemes ++ [.closing bracket])

inductive Listed (item : List Lexeme → Result → Prop) : List Lexeme → List Result → Prop where
  | none : Listed item [] []
  | last {lexemes result} : item lexemes result → Listed item lexemes [result]
  | cons {lexemes result others results} : item lexemes result → Listed item others results →
      Listed item (lexemes ++ .comma :: others) (result :: results)

inductive Joined (separator : Lexeme) (operand : List Lexeme → Result → Prop) :
    List Lexeme → List Result → Prop where
  | last {lexemes result} : operand lexemes result → Joined separator operand lexemes [result]
  | cons {lexemes result others results} : operand lexemes result →
      Joined separator operand others results →
      Joined separator operand (lexemes ++ separator :: others) (result :: results)

/-! ## Values -/

inductive MapEntryPhrase (value : List Lexeme → Value α → Prop) :
    List Lexeme → Value α × Value α → Prop where
  | intro {lexemes key others content} : value lexemes key → value others content →
      MapEntryPhrase value (lexemes ++ .arrow :: others) (key, content)

inductive RecordFieldPhrase (value : List Lexeme → Value α → Prop) :
    List Lexeme → String × Value α → Prop where
  | intro {lexemes content} (name : String) : value lexemes content →
      RecordFieldPhrase value (.name name :: .colon :: lexemes) (name, content)

def literalNames : List String := ["nil", "true", "false"]

inductive ValuePhrase [BEq α] : List Lexeme → Value α → Prop where
  | int (number : Int64) : ValuePhrase [.int number] (.int number)
  | float (number : Number.Binary64) : ValuePhrase [.float number] (.float number)
  | string (text : String) : ValuePhrase [.string text] (.string text)
  | symbol (name : String) : ValuePhrase [.symbol name] (.symbol name)
  | nil : ValuePhrase [.name "nil"] .nil
  | true : ValuePhrase [.name "true"] (.bool true)
  | false : ValuePhrase [.name "false"] (.bool false)
  | list {lexemes items} : Listed ValuePhrase lexemes items →
      ValuePhrase (inBrackets .square lexemes) (.list items)
  | map {lexemes entries} : Listed (MapEntryPhrase ValuePhrase) lexemes entries →
      ValuePhrase (inBrackets .curly lexemes) (Value.mapOf entries)
  | record {lexemes fields} (tag : String) : tag ∉ literalNames →
      Listed (RecordFieldPhrase ValuePhrase) lexemes fields →
      ValuePhrase (.name tag :: inBrackets .curly lexemes) (.record tag fields)

/-! ## Patterns -/

def compositeNames : List String := ["Seq", "And", "Or", "Not"]

def reservedNames : List String := "_" :: literalNames ++ compositeNames ++ Kind.all.map Kind.name

inductive NamePhrase : String → Pattern α → Prop where
  | wildcard : NamePhrase "_" .wildcard
  | nil : NamePhrase "nil" (.literal .nil)
  | true : NamePhrase "true" (.literal (.bool true))
  | false : NamePhrase "false" (.literal (.bool false))
  | kind (kind : Kind) : NamePhrase kind.name (.kind kind)
  | variable {name : String} : name ∉ reservedNames → NamePhrase name (.bind name)

inductive CallPhrase : String → List (Pattern α) → Pattern α → Prop where
  | sequence (items : List (Pattern α)) : CallPhrase "Seq" items (.sequence items)
  | and (operands : List (Pattern α)) : CallPhrase "And" operands (.and operands)
  | or (operands : List (Pattern α)) : CallPhrase "Or" operands (.or operands)
  | not (operands : List (Pattern α)) : CallPhrase "Not" operands (.not operands)
  | shape {name : String} (items : List (Pattern α)) : name ∉ compositeNames →
      CallPhrase name items (.deconstruct (.named name) items)

inductive LiteralPhrase : Lexeme → Value α → Prop where
  | int (number : Int64) : LiteralPhrase (.int number) (.int number)
  | float (number : Number.Binary64) : LiteralPhrase (.float number) (.float number)
  | string (text : String) : LiteralPhrase (.string text) (.string text)
  | symbol (name : String) : LiteralPhrase (.symbol name) (.symbol name)

inductive EntryPhrase [BEq α] (pattern : List Lexeme → Pattern α → Prop) :
    List Lexeme → Value α × Pattern α → Prop where
  | bare (name : String) : EntryPhrase pattern [.symbol name] (.symbol name, .bind name)
  | full {lexemes key others content} : ValuePhrase lexemes key → pattern others content →
      EntryPhrase pattern (lexemes ++ .arrow :: others) (key, content)

inductive FieldPhrase (pattern : List Lexeme → Pattern α → Prop) :
    List Lexeme → Value α × Pattern α → Prop where
  | bare (name : String) : FieldPhrase pattern [.symbol name] (.symbol name, .bind name)
  | full {lexemes content} (name : String) : pattern lexemes content →
      FieldPhrase pattern (.name name :: .colon :: lexemes) (.symbol name, content)

mutual
inductive PatternPhrase [Regex.Engine] [BEq α] : List Lexeme → Pattern α → Prop where
  | alone {lexemes pattern} : ConjunctionPhrase lexemes pattern → PatternPhrase lexemes pattern
  | choice {lexemes first second others} :
      Joined .bar ConjunctionPhrase lexemes (first :: second :: others) →
      PatternPhrase lexemes (.or (first :: second :: others))

inductive ConjunctionPhrase [Regex.Engine] [BEq α] : List Lexeme → Pattern α → Prop where
  | alone {lexemes pattern} : NegationPhrase lexemes pattern → ConjunctionPhrase lexemes pattern
  | conjunction {lexemes first second others} :
      Joined .ampersand NegationPhrase lexemes (first :: second :: others) →
      ConjunctionPhrase lexemes (.and (first :: second :: others))

inductive NegationPhrase [Regex.Engine] [BEq α] : List Lexeme → Pattern α → Prop where
  | alone {lexemes pattern} : PrimaryPhrase lexemes pattern → NegationPhrase lexemes pattern
  | negation {lexemes operand} : NegationPhrase lexemes operand →
      NegationPhrase (.bang :: lexemes) (.not [operand])

inductive PrimaryPhrase [Regex.Engine] [BEq α] : List Lexeme → Pattern α → Prop where
  | list {lexemes items} : Listed PatternPhrase lexemes items →
      PrimaryPhrase (inBrackets .square lexemes) (.list items)
  | map {lexemes entries} : Listed (EntryPhrase PatternPhrase) lexemes entries →
      PrimaryPhrase (inBrackets .curly lexemes) (.keyed .map entries)
  | group {lexemes pattern} : PatternPhrase lexemes pattern →
      PrimaryPhrase (inBrackets .round lexemes) pattern
  | repetition (minimum : Nat) (lazy : Bool) : PrimaryPhrase [.repetition minimum lazy]
      (.repetition minimum (if lazy then some .lazy else none))
  | regex {source expression} : Regex.compile source = .ok expression →
      PrimaryPhrase [.regex source] (.deconstruct (.regex expression)
        (List.replicate expression.partCount .wildcard))
  | regexCall {source expression lexemes items} : Regex.compile source = .ok expression →
      Listed PatternPhrase lexemes items →
      PrimaryPhrase (.regex source :: inBrackets .round lexemes)
        (.deconstruct (.regex expression) items)
  | call {name lexemes items pattern} : Listed PatternPhrase lexemes items →
      CallPhrase name items pattern →
      PrimaryPhrase (.name name :: inBrackets .round lexemes) pattern
  | record {lexemes entries} (tag : String) : Listed (FieldPhrase PatternPhrase) lexemes entries →
      PrimaryPhrase (.name tag :: inBrackets .curly lexemes) (.keyed (.record tag) entries)
  | name {name pattern} : NamePhrase name pattern → PrimaryPhrase [.name name] pattern
  | literal {lexeme value} : LiteralPhrase lexeme value →
      PrimaryPhrase [lexeme] (.literal value)
end

/-- A conjunction is a row of operands, of which a single one stands for itself. -/
theorem conjunctionPhrase_iff [Regex.Engine] [BEq α] {lexemes : List Lexeme}
    {pattern : Pattern α} :
    ConjunctionPhrase lexemes pattern ↔
      ∃ operands, Joined .ampersand NegationPhrase lexemes operands ∧
        composite .and operands = pattern := by
  constructor
  · intro holds
    cases holds with
    | alone holds => exact ⟨_, .last holds, rfl⟩
    | conjunction joined => exact ⟨_, joined, rfl⟩
  · rintro ⟨operands, joined, rfl⟩
    cases joined with
    | last holds => exact .alone holds
    | cons holds others =>
        cases others with
        | last holdsToo => exact .conjunction (.cons holds (.last holdsToo))
        | cons holdsToo others => exact .conjunction (.cons holds (.cons holdsToo others))

/-- The same for choices. -/
theorem patternPhrase_iff [Regex.Engine] [BEq α] {lexemes : List Lexeme} {pattern : Pattern α} :
    PatternPhrase lexemes pattern ↔
      ∃ operands, Joined .bar ConjunctionPhrase lexemes operands ∧
        composite .or operands = pattern := by
  constructor
  · intro holds
    cases holds with
    | alone holds => exact ⟨_, .last holds, rfl⟩
    | choice joined => exact ⟨_, joined, rfl⟩
  · rintro ⟨operands, joined, rfl⟩
    cases joined with
    | last holds => exact .alone holds
    | cons holds others =>
        cases others with
        | last holdsToo => exact .choice (.cons holds (.last holdsToo))
        | cons holdsToo others => exact .choice (.cons holds (.cons holdsToo others))

/-! ## Where phrases start

A list ends where a closing bracket stands in place of an item, so no item may start with one. -/

def Starts (phrase : List Lexeme → Result → Prop) : Prop :=
  ∀ lexemes result, phrase lexemes result →
    ∃ first others, lexemes = first :: others ∧ ∀ bracket, first ≠ .closing bracket

namespace Starts

variable {phrase : List Lexeme → Result → Prop}

theorem not_nil (starts : Starts phrase) (result : Result) : ¬phrase [] result := by
  intro holds
  rcases starts [] result holds with ⟨first, others, equal, -⟩
  cases equal

theorem head?_ne_closing (starts : Starts phrase) {lexemes : List Lexeme} {result : Result}
    (holds : phrase lexemes result) (bracket : Bracket) :
    lexemes.head? ≠ some (.closing bracket) := by
  rcases starts lexemes result holds with ⟨first, others, rfl, notClosing⟩
  exact fun equal => notClosing bracket (Option.some.inj equal)

theorem append (starts : Starts phrase) {lexemes : List Lexeme} {result : Result}
    (holds : phrase lexemes result) (behind : List Lexeme) :
    ∃ first others, lexemes ++ behind = first :: others ∧ ∀ bracket, first ≠ .closing bracket := by
  rcases starts lexemes result holds with ⟨first, others, rfl, notClosing⟩
  exact ⟨first, others ++ behind, rfl, notClosing⟩

theorem mapEntry {value : List Lexeme → Value α → Prop} (starts : Starts value) :
    Starts (MapEntryPhrase value) := by
  rintro _ _ ⟨key, content⟩
  exact starts.append key _

theorem recordField {value : List Lexeme → Value α → Prop} : Starts (RecordFieldPhrase value) := by
  rintro _ _ ⟨name, content⟩
  exact ⟨_, _, rfl, fun _ equal => by cases equal⟩

theorem value [BEq α] : Starts (ValuePhrase : List Lexeme → Value α → Prop) := by
  intro lexemes result holds
  cases holds <;> exact ⟨_, _, rfl, fun _ equal => by cases equal⟩

theorem joined {separator : Lexeme} (starts : Starts phrase) :
    Starts (Joined separator phrase) := by
  intro lexemes results holds
  cases holds with
  | last holds => exact starts lexemes _ holds
  | cons holds others => exact starts.append holds _

variable [BEq α] {content : List Lexeme → Pattern α → Prop}

theorem entry : Starts (EntryPhrase content) := by
  intro lexemes entry holds
  cases holds with
  | bare name => exact ⟨_, _, rfl, fun _ equal => by cases equal⟩
  | full key content => exact value.append key _

omit [BEq α] in
theorem field : Starts (FieldPhrase content) := by
  intro lexemes field holds
  cases holds <;> exact ⟨_, _, rfl, fun _ equal => by cases equal⟩

theorem primary [Regex.Engine] : Starts (PrimaryPhrase : List Lexeme → Pattern α → Prop) := by
  intro lexemes pattern holds
  cases holds with
  | literal literal => cases literal <;> exact ⟨_, _, rfl, fun _ equal => by cases equal⟩
  | _ => exact ⟨_, _, rfl, fun _ equal => by cases equal⟩

theorem negation [Regex.Engine] : Starts (NegationPhrase : List Lexeme → Pattern α → Prop) := by
  intro lexemes pattern holds
  cases holds with
  | alone holds => exact primary lexemes pattern holds
  | negation holds => exact ⟨_, _, rfl, fun _ equal => by cases equal⟩

theorem conjunction [Regex.Engine] :
    Starts (ConjunctionPhrase : List Lexeme → Pattern α → Prop) := by
  intro lexemes pattern holds
  cases holds with
  | alone holds => exact negation lexemes pattern holds
  | conjunction holds => exact negation.joined lexemes _ holds

theorem pattern [Regex.Engine] : Starts (PatternPhrase : List Lexeme → Pattern α → Prop) := by
  intro lexemes pattern holds
  cases holds with
  | alone holds => exact conjunction lexemes pattern holds
  | choice holds => exact conjunction.joined lexemes _ holds

end Starts

theorem ValuePhrase.eq_nil_of_symbol [BEq α] {name : String} {others : List Lexeme}
    {value : Value α} (phrase : ValuePhrase (.symbol name :: others) value) : others = [] := by
  cases phrase
  rfl

theorem not_primaryPhrase_bang [Regex.Engine] [BEq α] {others : List Lexeme}
    {pattern : Pattern α} :
    ¬PrimaryPhrase (.bang :: others) pattern := by
  intro phrase
  cases phrase with
  | literal literal => cases literal

/-! ## What names mean -/

theorem ofName?_eq_none_iff {name : String} :
    Kind.ofName? name = none ↔ name ∉ Kind.all.map Kind.name := by
  rw [Kind.ofName?, List.find?_eq_none, List.mem_map]
  constructor
  · rintro none ⟨kind, member, rfl⟩
    exact none kind member (beq_self_eq_true _)
  · intro absent kind member same
    exact absent ⟨kind, member, eq_of_beq same⟩

/-- The names of kinds are no other reserved names. -/
theorem meaning?_kind (kind : Kind) :
    meaning? kind.name = some (.kind kind : Pattern α) := by
  cases kind <;> rfl

theorem namePhrase_of_meaning? {name : String} {pattern : Pattern α}
    (means : meaning? name = some pattern) : NamePhrase name pattern := by
  unfold meaning? at means
  split at means
  case h_1 => cases means; exact .wildcard
  case h_2 => cases means; exact .nil
  case h_3 => cases means; exact .true
  case h_4 => cases means; exact .false
  case h_9 notWildcard notNil notTrue notFalse notSeq notAnd notOr notNot =>
    split at means
    case h_1 kind found =>
      cases means
      rw [Kind.ofName?] at found
      have same := List.find?_some found
      rw [← eq_of_beq same]
      exact .kind kind
    case h_2 unknown =>
      cases means
      apply NamePhrase.variable
      have noKind := ofName?_eq_none_iff.mp unknown
      simp only [reservedNames, literalNames, compositeNames, List.mem_append, List.mem_cons,
        not_or]
      exact ⟨⟨⟨notWildcard, notNil, notTrue, notFalse, List.not_mem_nil⟩,
        notSeq, notAnd, notOr, notNot, List.not_mem_nil⟩, noKind⟩
  all_goals cases means

theorem NamePhrase.meaning? {name : String} {pattern : Pattern α}
    (phrase : NamePhrase name pattern) : meaning? name = some pattern := by
  cases phrase with
  | wildcard => rfl
  | nil => rfl
  | true => rfl
  | false => rfl
  | kind kind => exact meaning?_kind kind
  | «variable» free =>
      simp only [reservedNames, literalNames, compositeNames, List.mem_append, List.mem_cons,
        not_or] at free
      rcases free with
          ⟨⟨⟨notWildcard, notNil, notTrue, notFalse, -⟩, notSeq, notAnd, notOr, notNot, -⟩, noKind⟩
      unfold Reading.meaning?
      split <;> try contradiction
      rw [ofName?_eq_none_iff.mpr noKind]

theorem callPhrase_called (name : String) (items : List (Pattern α)) :
    CallPhrase name items (called name items) := by
  unfold called
  split
  case h_1 => exact .sequence items
  case h_2 => exact .and items
  case h_3 => exact .or items
  case h_4 => exact .not items
  case h_5 notSeq notAnd notOr notNot =>
    apply CallPhrase.shape items
    simp only [compositeNames, List.mem_cons, not_or]
    exact ⟨notSeq, notAnd, notOr, notNot, List.not_mem_nil⟩

theorem CallPhrase.called_eq {name : String} {items : List (Pattern α)} {pattern : Pattern α}
    (phrase : CallPhrase name items pattern) : called name items = pattern := by
  cases phrase with
  | sequence => rfl
  | and => rfl
  | or => rfl
  | not => rfl
  | shape items free =>
      simp only [compositeNames, List.mem_cons, not_or] at free
      rcases free with ⟨notSeq, notAnd, notOr, notNot, -⟩
      unfold called
      split <;> first | contradiction | rfl

theorem literal?_eq_some_iff {lexeme : Lexeme} {value : Value α} :
    literal? lexeme = some value ↔ LiteralPhrase lexeme value := by
  constructor
  · intro found
    cases lexeme <;> cases found <;> constructor
  · rintro ⟨⟩ <;> rfl

end Destructure.Reading
