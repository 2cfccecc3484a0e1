import Destructure.Proofs.Reading.Soundness

/-!
Every phrase of a grammar is read, as far as what follows it does not lengthen it: a name goes on
in brackets, a conjunction in an ampersand and a choice in a bar. Together with soundness, readers
accept their grammars exactly, and a phrase stands for one thing only.
-/

namespace Destructure

def Lexeme.endsItem : Lexeme → Bool
  | comma | closing _ => true
  | _ => false

namespace Reading

variable {α Result : Type}

/-- On fewer tokens than the limit, a reader takes every phrase that the next lexeme does not
lengthen. -/
def Reads (limit : Nat) (phrase : List Lexeme → Result → Prop) (follows : Lexeme → Prop)
    (reader : Reader Result) : Prop :=
  ∀ taken rest result, phrase (taken.map Token.lexeme) result → (taken ++ rest).length < limit →
    (∀ next ∈ rest.head?, follows next.lexeme) → reader (taken ++ rest) = .ok (result, rest)

theorem map_lexeme_eq_cons {tokens : List Token} {lexeme : Lexeme} {others : List Lexeme}
    (lexemes : tokens.map Token.lexeme = lexeme :: others) :
    ∃ position rest, tokens = ⟨lexeme, position⟩ :: rest ∧ rest.map Token.lexeme = others := by
  rcases List.map_eq_cons_iff.mp lexemes with ⟨token, rest, rfl, rfl, equal⟩
  exact ⟨token.position, rest, rfl, equal⟩

theorem map_lexeme_eq_singleton {tokens : List Token} {lexeme : Lexeme}
    (lexemes : tokens.map Token.lexeme = [lexeme]) : ∃ position, tokens = [⟨lexeme, position⟩] := by
  rcases map_lexeme_eq_cons lexemes with ⟨position, rest, rfl, empty⟩
  exact ⟨position, congrArg _ (List.map_eq_nil_iff.mp empty)⟩

theorem behind_lexeme (endPosition : Nat) (lexeme : Lexeme) (position : Nat) (rest : List Token) :
    behind endPosition lexeme (⟨lexeme, position⟩ :: rest) = .ok rest := if_pos rfl

section Rows

variable {limit endPosition allowance position : Nat} {phrase : List Lexeme → Result → Prop}
variable {follows : Lexeme → Prop} {reader : Reader Result} {bracket : Bracket}
variable {separator : Lexeme} {tokens rest : List Token} {result : Result} {results : List Result}

theorem listUpTo_closing : listUpTo endPosition bracket reader (allowance + 1)
    (⟨.closing bracket, position⟩ :: rest) = .ok ([], rest) := by
  rw [listUpTo_succ]
  exact if_pos rfl

theorem listUpTo_last
    (notClosed : tokens.head?.map Token.lexeme ≠ some (.closing bracket))
    (item : reader tokens = .ok (result, ⟨.closing bracket, position⟩ :: rest)) :
    listUpTo endPosition bracket reader (allowance + 1) tokens = .ok ([result], rest) := by
  rw [listUpTo_succ, if_neg notClosed, item]
  change behind endPosition _ (_ :: rest) >>= _ = _
  rw [behind_lexeme]
  rfl

theorem listUpTo_comma {others : List Token}
    (notClosed : tokens.head?.map Token.lexeme ≠ some (.closing bracket))
    (item : reader tokens = .ok (result, ⟨.comma, position⟩ :: others))
    (later : listUpTo endPosition bracket reader allowance others = .ok (results, rest)) :
    listUpTo endPosition bracket reader (allowance + 1) tokens =
      .ok (result :: results, rest) := by
  rw [listUpTo_succ, if_neg notClosed, item]
  change listUpTo endPosition bracket reader allowance others >>= _ = _
  rw [later]
  rfl

theorem head_lexeme_append (starts : Starts phrase) {taken : List Token}
    (holds : phrase (taken.map Token.lexeme) result) (rest : List Token) :
    (taken ++ rest).head?.map Token.lexeme = (taken.map Token.lexeme).head? := by
  cases taken with
  | nil => exact absurd holds (starts.not_nil result)
  | cons token others => rfl

theorem reads_listUpTo (endPosition : Nat) (bracket : Bracket)
    (reads : Reads limit phrase follows reader)
    (starts : Starts phrase)
    (ends : ∀ lexeme, lexeme.endsItem → follows lexeme) (enough : limit ≤ allowance) :
    Reads limit (ListedUpTo bracket phrase) (fun _ => True)
      (listUpTo endPosition bracket reader allowance) := by
  rintro taken rest results ⟨inner, lexemes, listed⟩ below -
  replace enough : (taken ++ rest).length < allowance := by omega
  rcases (⟨allowance - 1, by omega⟩ : ∃ smaller, allowance = smaller + 1) with ⟨allowance, rfl⟩
  induction listed generalizing taken allowance with
  | none =>
      rcases map_lexeme_eq_singleton lexemes with ⟨position, rfl⟩
      exact listUpTo_closing
  | last holds =>
      rcases List.map_eq_append_iff.mp lexemes with ⟨item, closing, rfl, rfl, last⟩
      rcases map_lexeme_eq_singleton last with ⟨position, rfl⟩
      rw [List.append_assoc] at below ⊢
      apply listUpTo_last
      · rw [head_lexeme_append starts holds]
        exact starts.head?_ne_closing holds _
      · exact reads item _ _ holds below (by simpa using ends _ rfl)
  | cons holds listed induction =>
      rw [List.append_assoc, List.cons_append] at lexemes
      rcases List.map_eq_append_iff.mp lexemes with ⟨item, behindItem, rfl, rfl, later⟩
      rcases map_lexeme_eq_cons later with ⟨position, others, rfl, inside⟩
      rw [List.append_assoc, List.cons_append] at below enough ⊢
      have here := reads item _ _ holds below (by simpa using ends _ rfl)
      have shorter : (⟨.comma, position⟩ :: (others ++ rest)).length < _ :=
        length_lt_of_phrase starts holds
      rw [List.length_cons] at shorter
      rcases (⟨allowance - 1, by omega⟩ : ∃ smaller, allowance = smaller + 1) with ⟨allowance, rfl⟩
      apply listUpTo_comma _ here (induction others inside (by omega) allowance (by omega))
      rw [head_lexeme_append starts holds]
      exact starts.head?_ne_closing holds _

theorem operands_last
    (apart : rest.head?.map Token.lexeme ≠ some separator)
    (operand : reader tokens = .ok (result, rest)) :
    operands separator reader (allowance + 1) tokens = .ok ([result], rest) := by
  rw [operands_succ, operand]
  exact if_neg apart

theorem operands_separator {others : List Token}
    (operand : reader tokens = .ok (result, ⟨separator, position⟩ :: others))
    (later : operands separator reader allowance others = .ok (results, rest)) :
    operands separator reader (allowance + 1) tokens = .ok (result :: results, rest) := by
  rw [operands_succ, operand]
  change (if some separator = some separator then
    operands separator reader allowance others >>= _ else _) = _
  rw [if_pos rfl, later]
  rfl

theorem reads_operands (reads : Reads limit phrase follows reader)
    (starts : Starts phrase) (separates : follows separator)
    (enough : limit ≤ allowance) :
    Reads limit (Joined separator phrase) (fun lexeme => lexeme ≠ separator ∧ follows lexeme)
      (operands separator reader allowance) := by
  intro taken rest results joined below apart
  replace enough : (taken ++ rest).length < allowance := by omega
  rcases (⟨allowance - 1, by omega⟩ : ∃ smaller, allowance = smaller + 1) with ⟨allowance, rfl⟩
  generalize lexemes : taken.map Token.lexeme = row at joined
  induction joined generalizing taken allowance with
  | last holds =>
      subst lexemes
      apply operands_last
      · intro separated
        rcases exists_of_head_lexeme separated with ⟨position, others, rfl⟩
        exact (apart _ rfl).1 rfl
      · exact reads taken rest _ holds below fun next member => (apart next member).2
  | cons holds joined induction =>
      rcases List.map_eq_append_iff.mp lexemes with ⟨operand, behindOperand, rfl, rfl, later⟩
      rcases map_lexeme_eq_cons later with ⟨position, others, rfl, inside⟩
      rw [List.append_assoc, List.cons_append] at below enough ⊢
      have here := reads operand _ _ holds below (by simpa using separates)
      have shorter : (⟨separator, position⟩ :: (others ++ rest)).length < _ :=
        length_lt_of_phrase starts holds
      rw [List.length_cons] at shorter
      rcases (⟨allowance - 1, by omega⟩ : ∃ smaller, allowance = smaller + 1) with ⟨allowance, rfl⟩
      exact operands_separator here (induction others (by omega) allowance (by omega) inside)

/-- Reading on behind an opening bracket, where what the brackets hold is followed by the closing
one. -/
theorem listUpTo_inBrackets (reads : Reads limit (ListedUpTo bracket phrase) (fun _ => True)
      (listUpTo endPosition bracket reader allowance)) {taken rest : List Token}
    {inner : List Lexeme} (lexemes : taken.map Token.lexeme = inBrackets bracket inner)
    (listed : Listed phrase inner results) (below : (taken ++ rest).length ≤ limit) :
    ∃ position behindOpening, taken = ⟨.opening bracket, position⟩ :: behindOpening ∧
      listUpTo endPosition bracket reader allowance (behindOpening ++ rest) =
        .ok (results, rest) := by
  rcases map_lexeme_eq_cons lexemes with ⟨position, others, rfl, inside⟩
  rw [List.cons_append, List.length_cons] at below
  exact ⟨position, others, rfl,
    reads others rest results ⟨inner, inside, listed⟩ (by omega) fun _ _ => trivial⟩

/-- The same behind a lexeme that names what the brackets belong to. -/
theorem listUpTo_called (reads : Reads limit (ListedUpTo bracket phrase) (fun _ => True)
      (listUpTo endPosition bracket reader allowance)) {taken rest : List Token} {head : Lexeme}
    {inner : List Lexeme} (lexemes : taken.map Token.lexeme = head :: inBrackets bracket inner)
    (listed : Listed phrase inner results) (below : (taken ++ rest).length ≤ limit) :
    ∃ position positionToo behindOpening,
      taken = ⟨head, position⟩ :: ⟨.opening bracket, positionToo⟩ :: behindOpening ∧
        listUpTo endPosition bracket reader allowance (behindOpening ++ rest) =
          .ok (results, rest) := by
  rcases map_lexeme_eq_cons lexemes with ⟨position, others, rfl, inside⟩
  rw [List.cons_append, List.length_cons] at below
  rcases listUpTo_inBrackets reads inside listed (Nat.le_of_succ_le below) with
    ⟨positionToo, behindOpening, rfl, read⟩
  exact ⟨position, positionToo, behindOpening, rfl, read⟩

end Rows

/-! ## Values -/

section Values

variable {limit endPosition allowance : Nat} {phrase : List Lexeme → Value α → Prop}
variable {reader : Reader (Value α)} {bracket : Bracket}

theorem reads_mapEntry (endPosition : Nat) (reads : Reads limit phrase (fun _ => True) reader) :
    Reads limit (MapEntryPhrase phrase) (fun _ => True) (mapEntry endPosition reader) := by
  rintro taken rest entry entryPhrase below -
  generalize lexemes : taken.map Token.lexeme = row at entryPhrase
  cases entryPhrase with
  | intro holds holdsToo =>
      rcases List.map_eq_append_iff.mp lexemes with ⟨key, behindKey, rfl, rfl, later⟩
      rcases map_lexeme_eq_cons later with ⟨position, content, rfl, rfl⟩
      rw [List.append_assoc, List.cons_append] at below ⊢
      have readKey := reads key _ _ holds below fun _ _ => trivial
      rw [List.length_append, List.length_cons] at below
      have readContent := reads content rest _ holdsToo (by omega) fun _ _ => trivial
      simp only [mapEntry, bind, Except.bind, readKey, behind_lexeme, readContent]
      rfl

theorem reads_recordField (endPosition : Nat) (reads : Reads limit phrase (fun _ => True) reader) :
    Reads limit (RecordFieldPhrase phrase) (fun _ => True) (recordField endPosition reader) := by
  rintro taken rest field fieldPhrase below -
  generalize lexemes : taken.map Token.lexeme = row at fieldPhrase
  cases fieldPhrase with
  | intro name holds =>
      rcases map_lexeme_eq_cons lexemes with ⟨position, behindName, rfl, later⟩
      rcases map_lexeme_eq_cons later with ⟨positionToo, content, rfl, rfl⟩
      simp only [List.cons_append, List.length_cons] at below
      have readContent := reads content rest _ holds (by omega) fun _ _ => trivial
      simp only [List.cons_append, recordField, bind, Except.bind, behind_lexeme, readContent]
      rfl

theorem value_record [BEq α] {tag : String} (free : tag ∉ literalNames)
    (position positionToo : Nat) (rest : List Token) :
    (value endPosition (allowance + 1)
        (⟨.name tag, position⟩ :: ⟨.opening .curly, positionToo⟩ :: rest) :
      Except ReadFailure (Value α × List Token)) =
      listUpTo endPosition .curly (recordField endPosition (value endPosition allowance))
        (allowance + 1) rest >>= fun fields => .ok (.record tag fields.1, fields.2) := by
  simp only [literalNames, List.mem_cons, not_or] at free
  rcases free with ⟨notNil, notTrue, notFalse, -⟩
  rw [value]
  · rfl
  · exact notNil
  · exact notTrue
  · exact notFalse

end Values

theorem reads_value [BEq α] (endPosition allowance : Nat) :
    Reads allowance ValuePhrase (fun _ => True)
      (value endPosition allowance : Reader (Value α)) := by
  induction allowance with
  | zero =>
      intro taken rest result phrase below
      omega
  | succ allowance induction =>
      rintro taken rest result phrase below -
      generalize lexemes : taken.map Token.lexeme = row at phrase
      cases phrase with
      | int | float | string | symbol | nil | true | false =>
          rcases map_lexeme_eq_singleton lexemes with ⟨position, rfl⟩
          rfl
      | list listed =>
          have items := reads_listUpTo endPosition .square induction Starts.value
            (fun _ _ => trivial) (Nat.le_add_right _ 1)
          rcases listUpTo_inBrackets items lexemes listed (Nat.le_of_lt_succ below) with
            ⟨position, inner, rfl, read⟩
          change listUpTo endPosition .square (value endPosition allowance) (allowance + 1)
            (inner ++ rest) >>= _ = _
          rw [read]
          rfl
      | map listed =>
          have items := reads_listUpTo endPosition .curly (reads_mapEntry endPosition induction)
            Starts.value.mapEntry (fun _ _ => trivial) (Nat.le_add_right _ 1)
          rcases listUpTo_inBrackets items lexemes listed (Nat.le_of_lt_succ below) with
            ⟨position, inner, rfl, read⟩
          change listUpTo endPosition .curly (mapEntry endPosition (value endPosition allowance))
            (allowance + 1) (inner ++ rest) >>= _ = _
          rw [read]
          rfl
      | record tag free listed =>
          have items := reads_listUpTo endPosition .curly (reads_recordField endPosition induction)
            Starts.recordField (fun _ _ => trivial) (Nat.le_add_right _ 1)
          rcases listUpTo_called items lexemes listed (Nat.le_of_lt_succ below) with
            ⟨position, positionToo, inner, rfl, read⟩
          rw [List.cons_append, List.cons_append, value_record free, read]
          rfl

/-! ## Patterns -/

def EndsPrimary (lexeme : Lexeme) : Prop := lexeme ≠ .opening .round ∧ lexeme ≠ .opening .curly

def EndsConjunction (lexeme : Lexeme) : Prop := lexeme ≠ .ampersand ∧ EndsPrimary lexeme

def EndsPattern (lexeme : Lexeme) : Prop := lexeme ≠ .bar ∧ EndsConjunction lexeme

theorem endsPattern_of_endsItem (lexeme : Lexeme) (ends : lexeme.endsItem) :
    EndsPattern lexeme := by
  cases lexeme <;> simp_all [Lexeme.endsItem, EndsPattern, EndsConjunction, EndsPrimary]

theorem endsEntry_eq (tokens : List Token) :
    endsEntry tokens = tokens.head?.all fun token => token.lexeme.endsItem := by
  cases tokens with
  | nil => rfl
  | cons token rest =>
      rcases token with ⟨lexeme, position⟩
      cases lexeme <;> rfl

section Patterns

variable [BEq α] {limit endPosition allowance : Nat} {phrase : List Lexeme → Pattern α → Prop}
variable {follows : Lexeme → Prop} {reader : Reader (Pattern α)}

theorem keyedEntry_full {key : Value α} {content : Pattern α} {tokens others rest : List Token}
    {position : Nat} (notBare : ∀ name positionToo behindName,
      tokens = ⟨.symbol name, positionToo⟩ :: behindName → endsEntry behindName = false)
    (readKey : value endPosition allowance tokens = .ok (key, ⟨.arrow, position⟩ :: others))
    (readContent : reader others = .ok (content, rest)) :
    keyedEntry endPosition allowance reader tokens = .ok ((key, content), rest) := by
  unfold keyedEntry
  simp only [bind, Except.bind, readKey, behind_lexeme, readContent]
  split
  case h_1 name positionToo behindName =>
    rw [if_neg]
    · rfl
    · rw [notBare name positionToo behindName rfl]
      exact Bool.false_ne_true
  case h_2 => rfl

theorem reads_keyedEntry (endPosition : Nat) (reads : Reads allowance phrase follows reader)
    (ends : ∀ lexeme, lexeme.endsItem → follows lexeme) :
    Reads allowance (EntryPhrase phrase) (fun lexeme => lexeme.endsItem)
      (keyedEntry endPosition allowance reader) := by
  intro taken rest entry entryPhrase below apart
  generalize lexemes : taken.map Token.lexeme = row at entryPhrase
  cases entryPhrase with
  | bare name =>
      rcases map_lexeme_eq_singleton lexemes with ⟨position, rfl⟩
      have ended : endsEntry rest = true := by
        rw [endsEntry_eq, Option.all_eq_true]
        exact apart
      exact if_pos ended
  | full holds holdsToo =>
      rcases List.map_eq_append_iff.mp lexemes with ⟨key, behindKey, rfl, rfl, later⟩
      rcases map_lexeme_eq_cons later with ⟨position, content, rfl, rfl⟩
      rw [List.append_assoc, List.cons_append] at below ⊢
      have readKey := reads_value endPosition allowance key _ _ holds below fun _ _ => trivial
      rw [List.length_append, List.length_cons] at below
      have readContent := reads content rest _ holdsToo (by omega)
        fun next member => ends _ (apart next member)
      refine keyedEntry_full ?_ readKey readContent
      -- A key that starts with a symbol is that symbol, so the arrow comes next.
      intro name positionToo behindName equal
      cases key with
      | nil => exact absurd holds (Starts.value.not_nil _)
      | cons token others =>
          rcases List.cons_eq_cons.mp equal with ⟨rfl, rfl⟩
          rcases List.map_eq_nil_iff.mp holds.eq_nil_of_symbol with rfl
          rfl

omit [BEq α] in
theorem reads_keyedField (endPosition : Nat) (reads : Reads limit phrase follows reader)
    (ends : ∀ lexeme, lexeme.endsItem → follows lexeme) :
    Reads limit (FieldPhrase phrase) (fun lexeme => lexeme.endsItem)
      (keyedField endPosition reader) := by
  intro taken rest field fieldPhrase below apart
  generalize lexemes : taken.map Token.lexeme = row at fieldPhrase
  cases fieldPhrase with
  | bare name =>
      rcases map_lexeme_eq_singleton lexemes with ⟨position, rfl⟩
      rfl
  | full name holds =>
      rcases map_lexeme_eq_cons lexemes with ⟨position, behindName, rfl, later⟩
      rcases map_lexeme_eq_cons later with ⟨positionToo, content, rfl, rfl⟩
      simp only [List.cons_append, List.length_cons] at below
      have readContent := reads content rest _ holds (by omega)
        fun next member => ends _ (apart next member)
      simp only [List.cons_append, keyedField, bind, Except.bind, behind_lexeme, readContent]
      rfl

variable [Regex.Engine]

theorem primary_name {name : String} {result : Pattern α} {position : Nat} {rest : List Token}
    (apart : ∀ next ∈ rest.head?, EndsPrimary next.lexeme) (means : meaning? name = some result) :
    primary endPosition allowance reader (⟨.name name, position⟩ :: rest) = .ok (result, rest) := by
  cases rest with
  | nil => simp only [primary, means]
  | cons next others =>
      rcases next with ⟨lexeme, positionToo⟩
      rcases (apart _ rfl : EndsPrimary lexeme) with ⟨notRound, notCurly⟩
      cases lexeme with
      | opening bracket =>
          cases bracket with
          | round => exact absurd rfl notRound
          | curly => exact absurd rfl notCurly
          | square => simp only [primary, means]
      | _ => simp only [primary, means]

theorem primary_bareRegex {source : String} {regex : Regex} {position : Nat} {rest : List Token}
    (compiled : Regex.compile source = .ok regex)
    (bare : ∀ next ∈ rest.head?, next.lexeme ≠ .opening .round) :
    primary endPosition allowance reader (⟨.regex source, position⟩ :: rest) =
      .ok (.deconstruct (.regex regex) (List.replicate regex.partCount .wildcard), rest) := by
  simp only [primary, compiled]
  split
  case h_1 => exact absurd rfl (bare _ rfl)
  case h_2 => rfl

theorem reads_primary (reads : Reads allowance PatternPhrase EndsPattern reader) :
    Reads (allowance + 1) PrimaryPhrase EndsPrimary (primary endPosition allowance reader) := by
  intro taken rest result phrase below apart
  generalize lexemes : taken.map Token.lexeme = row at phrase
  cases phrase with
  | list listed =>
      have items := reads_listUpTo endPosition .square reads Starts.pattern endsPattern_of_endsItem
        (Nat.le_add_right _ 1)
      rcases listUpTo_inBrackets items lexemes listed (Nat.le_of_lt_succ below) with
        ⟨position, inner, rfl, read⟩
      change listUpTo endPosition .square reader (allowance + 1) (inner ++ rest) >>= _ = _
      rw [read]
      rfl
  | map listed =>
      have items := reads_listUpTo endPosition .curly (reads_keyedEntry endPosition reads
        endsPattern_of_endsItem) Starts.entry (fun _ ends => ends) (Nat.le_add_right _ 1)
      rcases listUpTo_inBrackets items lexemes listed (Nat.le_of_lt_succ below) with
        ⟨position, inner, rfl, read⟩
      change listUpTo endPosition .curly (keyedEntry endPosition allowance reader) (allowance + 1)
        (inner ++ rest) >>= _ = _
      rw [read]
      rfl
  | group holds =>
      rcases map_lexeme_eq_cons lexemes with ⟨position, others, rfl, inside⟩
      rcases List.map_eq_append_iff.mp inside with ⟨inner, closing, rfl, rfl, last⟩
      rcases map_lexeme_eq_singleton last with ⟨positionToo, rfl⟩
      rw [List.cons_append, List.length_cons, List.append_assoc] at below
      have read := reads inner _ _ holds (Nat.lt_of_succ_lt_succ below)
        fun next member => endsPattern_of_endsItem _ (by cases member; rfl)
      simp only [List.cons_append, List.append_assoc, List.nil_append] at read ⊢
      simp only [primary, bind, Except.bind, read, behind_lexeme]
      rfl
  | repetition minimum lazy =>
      rcases map_lexeme_eq_singleton lexemes with ⟨position, rfl⟩
      rfl
  | regex compiled =>
      rcases map_lexeme_eq_singleton lexemes with ⟨position, rfl⟩
      exact primary_bareRegex compiled fun next member => (apart next member).1
  | regexCall compiled listed =>
      have items := reads_listUpTo endPosition .round reads Starts.pattern endsPattern_of_endsItem
        (Nat.le_add_right _ 1)
      rcases listUpTo_called items lexemes listed (Nat.le_of_lt_succ below) with
        ⟨position, positionToo, inner, rfl, read⟩
      simp only [List.cons_append, primary, compiled, bind, Except.bind, read]
      rfl
  | call listed call =>
      have items := reads_listUpTo endPosition .round reads Starts.pattern endsPattern_of_endsItem
        (Nat.le_add_right _ 1)
      rcases listUpTo_called items lexemes listed (Nat.le_of_lt_succ below) with
        ⟨position, positionToo, inner, rfl, read⟩
      rw [← call.called_eq]
      simp only [List.cons_append, primary, bind, Except.bind, read]
      rfl
  | record tag listed =>
      have items := reads_listUpTo endPosition .curly (reads_keyedField endPosition reads
        endsPattern_of_endsItem) Starts.field (fun _ ends => ends) (Nat.le_add_right _ 1)
      rcases listUpTo_called items lexemes listed (Nat.le_of_lt_succ below) with
        ⟨position, positionToo, inner, rfl, read⟩
      simp only [List.cons_append, primary, bind, Except.bind, read]
      rfl
  | name phrase =>
      rcases map_lexeme_eq_singleton lexemes with ⟨position, rfl⟩
      exact primary_name apart phrase.meaning?
  | literal phrase =>
      rcases map_lexeme_eq_singleton lexemes with ⟨position, rfl⟩
      cases phrase <;> rfl

omit [BEq α] [Regex.Engine] in
theorem negated_of_ne_bang {tokens : List Token}
    (notBang : tokens.head?.map Token.lexeme ≠ some .bang) :
    negated reader tokens = reader tokens := by
  unfold negated
  split
  case h_1 => exact absurd rfl notBang
  case h_2 => rfl

theorem reads_negated (reads : Reads limit PrimaryPhrase EndsPrimary reader) :
    Reads limit NegationPhrase EndsPrimary (negated reader) := by
  intro taken rest result phrase below apart
  induction taken generalizing result with
  | nil => exact absurd phrase (Starts.negation.not_nil _)
  | cons token others induction =>
      rcases token with ⟨lexeme, position⟩
      generalize lexemes : (⟨lexeme, position⟩ :: others : List Token).map Token.lexeme = row
        at phrase
      cases phrase with
      | alone holds =>
          subst lexemes
          rw [negated_of_ne_bang]
          · exact reads _ rest result holds below apart
          · intro equal
            rcases show lexeme = .bang from Option.some.inj equal with rfl
            exact not_primaryPhrase_bang holds
      | negation holds =>
          rcases List.cons_eq_cons.mp lexemes with ⟨rfl, rfl⟩
          rw [List.cons_append, List.length_cons] at below
          change negated reader (others ++ rest) >>= _ = _
          rw [induction _ holds (by omega)]
          rfl

theorem reads_conjunction (reads : Reads limit NegationPhrase EndsPrimary reader)
    (enough : limit ≤ allowance + 1) :
    Reads limit ConjunctionPhrase EndsConjunction (conjunction allowance reader) := by
  intro taken rest result phrase below apart
  rcases conjunctionPhrase_iff.mp phrase with ⟨operands, joined, rfl⟩
  have read := reads_operands reads Starts.negation (by simp [EndsPrimary]) enough taken rest
    operands joined below apart
  rw [conjunction, read]
  rfl

theorem reads_choice (reads : Reads limit ConjunctionPhrase EndsConjunction reader)
    (enough : limit ≤ allowance + 1) :
    Reads limit PatternPhrase EndsPattern (choice allowance reader) := by
  intro taken rest result phrase below apart
  rcases patternPhrase_iff.mp phrase with ⟨operands, joined, rfl⟩
  have read := reads_operands reads Starts.conjunction (by simp [EndsConjunction, EndsPrimary])
    enough taken rest operands joined below apart
  rw [choice, read]
  rfl

end Patterns

theorem reads_pattern [Regex.Engine] [BEq α] (endPosition allowance : Nat) :
    Reads allowance PatternPhrase EndsPattern
      (pattern endPosition allowance : Reader (Pattern α)) := by
  induction allowance with
  | zero =>
      intro taken rest result phrase below
      omega
  | succ allowance induction =>
      exact reads_choice (reads_conjunction (reads_negated (reads_primary induction))
        (Nat.le_refl _)) (Nat.le_refl _)

end Reading

end Destructure
