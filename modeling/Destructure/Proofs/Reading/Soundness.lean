import Destructure.Proofs.Reading.Phrases

/-!
What readers read is a phrase of their grammar, and what they cannot read they refuse. Within its
allowance a reader never runs out of it: every level of brackets and every item takes a token at
least.
-/

namespace Destructure

def Regex.Fails [Engine] (source message : String) : Prop := compile source = .error message

/-- A failure that tokens can be blamed for: a refusal or the error of a regular expression among
them that is not valid. -/
def ReadFailure.Justified (invalid : String → String → Prop) (tokens : List Token)
    (failure : ReadFailure) : Prop :=
  (∃ error, failure = .refused error) ∨
    ∃ source message, .regex source ∈ tokens.map Token.lexeme ∧ invalid source message ∧
      failure = .badRegex message

namespace Reading

variable {α Result Other : Type}

def Outcome (invalid : String → String → Prop) (tokens : List Token)
    (accepts : Result → Prop) : Except ReadFailure Result → Prop
  | .ok result => accepts result
  | .error failure => failure.Justified invalid tokens

namespace Outcome

variable {invalid : String → String → Prop} {tokens others : List Token} {accepts : Result → Prop}
variable {outcome : Except ReadFailure Result}

theorem refuse (endPosition : Nat) (expectation : Expectation) (found : List Token) :
    Outcome invalid tokens accepts (Reading.refuse endPosition expectation found) := by
  cases found <;> exact .inl ⟨_, rfl⟩

theorem bind {acceptsNext : Other → Prop} (holds : Outcome invalid tokens accepts outcome)
    {next : Result → Except ReadFailure Other}
    (goesOn : ∀ result, accepts result → Outcome invalid tokens acceptsNext (next result)) :
    Outcome invalid tokens acceptsNext (outcome >>= next) := by
  cases outcome with
  | error failure => exact holds
  | ok result => exact goesOn result holds

theorem imp {acceptsToo : Result → Prop} (holds : Outcome invalid tokens accepts outcome)
    (implies : ∀ result, accepts result → acceptsToo result) :
    Outcome invalid tokens acceptsToo outcome := by
  cases outcome with
  | error failure => exact holds
  | ok result => exact implies result holds

theorem widen (holds : Outcome invalid others accepts outcome) (within : others ⊆ tokens) :
    Outcome invalid tokens accepts outcome := by
  cases outcome with
  | ok result => exact holds
  | error failure =>
      rcases holds with refused | ⟨source, message, member, fails, equal⟩
      · exact .inl refused
      · exact .inr ⟨source, message, List.map_subset _ within member, fails, equal⟩

end Outcome

def Taken (phrase : List Lexeme → Result → Prop) (tokens : List Token)
    (answer : Result × List Token) : Prop :=
  ∃ taken, tokens = taken ++ answer.2 ∧ phrase (taken.map Token.lexeme) answer.1

def Sound (invalid : String → String → Prop) (limit : Nat) (phrase : List Lexeme → Result → Prop)
    (reader : Reader Result) : Prop :=
  ∀ tokens, tokens.length < limit → Outcome invalid tokens (Taken phrase tokens) (reader tokens)

theorem exists_of_head_lexeme {tokens : List Token} {lexeme : Lexeme}
    (leads : tokens.head?.map Token.lexeme = some lexeme) :
    ∃ position rest, tokens = ⟨lexeme, position⟩ :: rest := by
  cases tokens with
  | nil => cases leads
  | cons token rest =>
      cases leads
      exact ⟨token.position, rest, rfl⟩

theorem outcome_behind {invalid : String → String → Prop} (endPosition : Nat) (lexeme : Lexeme)
    (tokens : List Token) :
    Outcome invalid tokens (fun rest => ∃ position, tokens = ⟨lexeme, position⟩ :: rest)
      (behind endPosition lexeme tokens) := by
  cases tokens with
  | nil => exact .refuse endPosition (.lexeme lexeme) []
  | cons token rest =>
      rw [behind]
      split
      case isTrue same =>
        subst same
        exact ⟨token.position, rfl⟩
      case isFalse => exact .refuse _ _ _

section Rows

variable {invalid : String → String → Prop} {limit endPosition : Nat}
  {phrase : List Lexeme → Result → Prop} {reader : Reader Result}

theorem listUpTo_succ (endPosition : Nat) (bracket : Bracket) (item : Reader Result)
    (allowance : Nat) (tokens : List Token) :
    listUpTo endPosition bracket item (allowance + 1) tokens =
      if tokens.head?.map Token.lexeme = some (.closing bracket) then .ok ([], tokens.tail)
      else item tokens >>= fun first =>
        if first.2.head?.map Token.lexeme = some .comma then
          listUpTo endPosition bracket item allowance first.2.tail >>= fun others =>
            .ok (first.1 :: others.1, others.2)
        else
          behind endPosition (.closing bracket) first.2 >>= fun rest => .ok ([first.1], rest) := by
  rw [listUpTo]
  congr 1
  cases item tokens with
  | error failure => rfl
  | ok first =>
      dsimp only [bind, Except.bind]
      congr 1
      · cases listUpTo endPosition bracket item allowance first.2.tail <;> rfl
      · cases behind endPosition (.closing bracket) first.2 <;> rfl

theorem operands_succ (separator : Lexeme) (operand : Reader Result) (allowance : Nat)
    (tokens : List Token) :
    operands separator operand (allowance + 1) tokens =
      operand tokens >>= fun first =>
        if first.2.head?.map Token.lexeme = some separator then
          operands separator operand allowance first.2.tail >>= fun others =>
            .ok (first.1 :: others.1, others.2)
        else .ok ([first.1], first.2) := by
  rw [operands]
  cases operand tokens with
  | error failure => rfl
  | ok first =>
      dsimp only [bind, Except.bind]
      congr 1
      cases operands separator operand allowance first.2.tail <;> rfl

theorem length_lt_of_phrase (starts : Starts phrase) {taken rest : List Token}
    {result : Result} (holds : phrase (taken.map Token.lexeme) result) :
    rest.length < (taken ++ rest).length := by
  cases taken with
  | nil => exact absurd holds (starts.not_nil result)
  | cons token others =>
      rw [List.length_append, List.length_cons]
      omega

def ListedUpTo (bracket : Bracket) (item : List Lexeme → Result → Prop) (lexemes : List Lexeme)
    (results : List Result) : Prop :=
  ∃ inner, lexemes = inner ++ [.closing bracket] ∧ Listed item inner results

theorem sound_listUpTo (sound : Sound invalid limit phrase reader)
    (starts : Starts phrase) (bracket : Bracket) {allowance : Nat}
    (enough : limit ≤ allowance) :
    Sound invalid limit (ListedUpTo bracket phrase)
      (listUpTo endPosition bracket reader allowance) := by
  intro tokens below
  replace enough : tokens.length < allowance := by omega
  induction allowance generalizing tokens with
  | zero => omega
  | succ allowance induction =>
      rw [listUpTo_succ]
      split
      case isTrue closes =>
        rcases exists_of_head_lexeme closes with ⟨position, rest, rfl⟩
        exact ⟨[⟨.closing bracket, position⟩], rfl, [], rfl, .none⟩
      case isFalse =>
        apply (sound tokens below).bind
        rintro ⟨result, rest⟩ ⟨taken, equal, holds⟩
        rcases show tokens = taken ++ rest from equal with rfl
        have shorter : rest.length < (taken ++ rest).length := length_lt_of_phrase starts holds
        split
        case isTrue comma =>
          rcases exists_of_head_lexeme comma with ⟨position, rest, rfl⟩
          rw [List.length_cons] at shorter
          refine ((induction rest (by omega) (by omega)).widen ?_).bind ?_
          · exact List.Subset.trans (List.subset_cons_self _ _) (List.subset_append_right _ _)
          · rintro ⟨results, rest⟩ ⟨later, rfl, inner, lexemes, listed⟩
            refine ⟨taken ++ ⟨.comma, position⟩ :: later, by simp,
              taken.map Token.lexeme ++ .comma :: inner, ?_, .cons holds listed⟩
            rw [List.map_append, List.map_cons, lexemes, List.append_assoc, List.cons_append]
        case isFalse =>
          refine ((outcome_behind endPosition (.closing bracket) rest).widen
            (List.subset_append_right _ _)).bind ?_
          rintro rest ⟨position, rfl⟩
          exact ⟨taken ++ [⟨.closing bracket, position⟩], by simp, taken.map Token.lexeme,
            by simp, .last holds⟩

theorem sound_operands (sound : Sound invalid limit phrase reader)
    (starts : Starts phrase) (separator : Lexeme) {allowance : Nat}
    (enough : limit ≤ allowance) :
    Sound invalid limit (Joined separator phrase) (operands separator reader allowance) := by
  intro tokens below
  replace enough : tokens.length < allowance := by omega
  induction allowance generalizing tokens with
  | zero => omega
  | succ allowance induction =>
      rw [operands_succ]
      apply (sound tokens below).bind
      rintro ⟨result, rest⟩ ⟨taken, equal, holds⟩
      rcases show tokens = taken ++ rest from equal with rfl
      have shorter : rest.length < (taken ++ rest).length := length_lt_of_phrase starts holds
      split
      case isTrue separated =>
        rcases exists_of_head_lexeme separated with ⟨position, rest, rfl⟩
        rw [List.length_cons] at shorter
        refine ((induction rest (by omega) (by omega)).widen ?_).bind ?_
        · exact List.Subset.trans (List.subset_cons_self _ _) (List.subset_append_right _ _)
        · rintro ⟨results, rest⟩ ⟨later, rfl, joined⟩
          refine ⟨taken ++ ⟨separator, position⟩ :: later, by simp, ?_⟩
          rw [List.map_append, List.map_cons]
          exact .cons holds joined
      case isFalse => exact ⟨taken, rfl, .last holds⟩

/-- Reading on behind an opening bracket, and building something from what the brackets hold. -/
theorem outcome_inBrackets {rest : List Token} {bracket : Bracket}
    {outcome : Except ReadFailure (List Result × List Token)}
    (holds : Outcome invalid rest (Taken (ListedUpTo bracket phrase) rest) outcome)
    (before : List Token) {position : Nat} {larger : List Lexeme → Other → Prop}
    (build : List Result → Other)
    (builds : ∀ inner results, Listed phrase inner results →
      larger (before.map Token.lexeme ++ inBrackets bracket inner) (build results)) :
    Outcome invalid (before ++ ⟨.opening bracket, position⟩ :: rest)
      (Taken larger (before ++ ⟨.opening bracket, position⟩ :: rest))
      (outcome >>= fun answer => .ok (build answer.1, answer.2)) := by
  refine (holds.widen (List.Subset.trans (List.subset_cons_self _ _)
    (List.subset_append_right _ _))).bind ?_
  rintro ⟨results, remaining⟩ ⟨taken, rfl, inner, lexemes, listed⟩
  refine ⟨before ++ ⟨.opening bracket, position⟩ :: taken, by simp, ?_⟩
  rw [List.map_append, List.map_cons, lexemes]
  exact builds inner results listed

end Rows

/-! ## Values -/

section Values

variable {invalid : String → String → Prop} {limit endPosition : Nat}
variable {phrase : List Lexeme → Value α → Prop} {reader : Reader (Value α)}

theorem sound_mapEntry (sound : Sound invalid limit phrase reader) :
    Sound invalid limit (MapEntryPhrase phrase) (mapEntry endPosition reader) := by
  intro tokens below
  apply (sound tokens below).bind
  rintro ⟨key, rest⟩ ⟨taken, equal, holds⟩
  rcases show tokens = taken ++ rest from equal with rfl
  refine ((outcome_behind endPosition .arrow rest).widen (List.subset_append_right _ _)).bind ?_
  rintro rest ⟨position, rfl⟩
  rw [List.length_append, List.length_cons] at below
  refine ((sound rest (by omega)).widen ?_).bind ?_
  · exact List.Subset.trans (List.subset_cons_self _ _) (List.subset_append_right _ _)
  · rintro ⟨content, rest⟩ ⟨later, rfl, holdsToo⟩
    refine ⟨taken ++ ⟨.arrow, position⟩ :: later, by simp, ?_⟩
    rw [List.map_append, List.map_cons]
    exact .intro holds holdsToo

theorem sound_recordField (sound : Sound invalid limit phrase reader) :
    Sound invalid limit (RecordFieldPhrase phrase) (recordField endPosition reader) := by
  intro tokens below
  unfold recordField
  split
  case h_1 name position rest =>
    refine ((outcome_behind endPosition .colon rest).widen (List.subset_cons_self _ _)).bind ?_
    rintro rest ⟨positionToo, rfl⟩
    simp only [List.length_cons] at below
    refine ((sound rest (by omega)).widen ?_).bind ?_
    · exact List.Subset.trans (List.subset_cons_self _ _) (List.subset_cons_self _ _)
    · rintro ⟨content, rest⟩ ⟨taken, rfl, holds⟩
      exact ⟨⟨.name name, position⟩ :: ⟨.colon, positionToo⟩ :: taken, rfl, .intro name holds⟩
  case h_2 => exact .refuse _ _ _

end Values

theorem sound_value [BEq α] (invalid : String → String → Prop) (endPosition allowance : Nat) :
    Sound invalid allowance ValuePhrase (value endPosition allowance : Reader (Value α)) := by
  induction allowance with
  | zero =>
      intro tokens below
      omega
  | succ allowance induction =>
      intro tokens below
      unfold value
      split
      case h_1 number position rest => exact ⟨[⟨.int number, position⟩], rfl, .int number⟩
      case h_2 number position rest => exact ⟨[⟨.float number, position⟩], rfl, .float number⟩
      case h_3 text position rest => exact ⟨[⟨.string text, position⟩], rfl, .string text⟩
      case h_4 name position rest => exact ⟨[⟨.symbol name, position⟩], rfl, .symbol name⟩
      case h_5 position rest =>
        rw [List.length_cons] at below
        exact outcome_inBrackets (sound_listUpTo induction Starts.value .square
          (Nat.le_succ _) rest (by omega)) [] Value.list fun _ _ => .list
      case h_6 position rest =>
        rw [List.length_cons] at below
        exact outcome_inBrackets (sound_listUpTo (sound_mapEntry induction) Starts.value.mapEntry
          .curly (Nat.le_succ _) rest (by omega)) [] Value.mapOf fun _ _ => .map
      case h_7 position rest => exact ⟨[⟨.name "nil", position⟩], rfl, .nil⟩
      case h_8 position rest => exact ⟨[⟨.name "true", position⟩], rfl, .true⟩
      case h_9 position rest => exact ⟨[⟨.name "false", position⟩], rfl, .false⟩
      case h_10 tag position positionToo rest notNil notTrue notFalse =>
        simp only [List.length_cons] at below
        have free : tag ∉ literalNames := by
          simp only [literalNames, List.mem_cons, not_or]
          exact ⟨notNil, notTrue, notFalse, List.not_mem_nil⟩
        exact outcome_inBrackets (sound_listUpTo (sound_recordField induction)
          Starts.recordField .curly (Nat.le_succ _) rest (by omega)) [⟨.name tag, position⟩]
          (Value.record tag) fun _ _ => .record tag free
      case h_11 => exact .refuse _ _ _

/-! ## Patterns -/

section Patterns

variable [BEq α]

variable {invalid : String → String → Prop}
variable {limit endPosition allowance : Nat} {phrase : List Lexeme → Pattern α → Prop}
variable {reader : Reader (Pattern α)}

theorem sound_keyedEntry (sound : Sound invalid allowance phrase reader) :
    Sound invalid allowance (EntryPhrase phrase) (keyedEntry endPosition allowance reader) := by
  intro tokens below
  have full : Outcome invalid tokens (Taken (EntryPhrase phrase) tokens)
      (value endPosition allowance tokens >>= fun key =>
        behind endPosition .arrow key.2 >>= fun rest =>
          reader rest >>= fun content => .ok ((key.1, content.1), content.2)) := by
    apply (sound_value invalid endPosition allowance tokens below).bind
    rintro ⟨key, rest⟩ ⟨taken, equal, holds⟩
    rcases show tokens = taken ++ rest from equal with rfl
    refine ((outcome_behind endPosition .arrow rest).widen (List.subset_append_right _ _)).bind ?_
    rintro rest ⟨position, rfl⟩
    rw [List.length_append, List.length_cons] at below
    refine ((sound rest (by omega)).widen ?_).bind ?_
    · exact List.Subset.trans (List.subset_cons_self _ _) (List.subset_append_right _ _)
    · rintro ⟨content, rest⟩ ⟨later, rfl, holdsToo⟩
      refine ⟨taken ++ ⟨.arrow, position⟩ :: later, by simp, ?_⟩
      rw [List.map_append, List.map_cons]
      exact .full holds holdsToo
  unfold keyedEntry
  dsimp only
  split
  case h_1 name position rest =>
    split
    case isTrue => exact ⟨[⟨.symbol name, position⟩], rfl, .bare name⟩
    case isFalse => exact full
  case h_2 => exact full

omit [BEq α] in
theorem sound_keyedField (sound : Sound invalid limit phrase reader) :
    Sound invalid limit (FieldPhrase phrase) (keyedField endPosition reader) := by
  intro tokens below
  unfold keyedField
  split
  case h_1 name position rest => exact ⟨[⟨.symbol name, position⟩], rfl, .bare name⟩
  case h_2 name position rest =>
    refine ((outcome_behind endPosition .colon rest).widen (List.subset_cons_self _ _)).bind ?_
    rintro rest ⟨positionToo, rfl⟩
    simp only [List.length_cons] at below
    refine ((sound rest (by omega)).widen ?_).bind ?_
    · exact List.Subset.trans (List.subset_cons_self _ _) (List.subset_cons_self _ _)
    · rintro ⟨content, rest⟩ ⟨taken, rfl, holds⟩
      exact ⟨⟨.name name, position⟩ :: ⟨.colon, positionToo⟩ :: taken, rfl, .full name holds⟩
  case h_3 => exact .refuse _ _ _

variable [Regex.Engine]

theorem sound_primary (sound : Sound Regex.Fails allowance PatternPhrase reader) :
    Sound Regex.Fails (allowance + 1) PrimaryPhrase (primary endPosition allowance reader) := by
  intro tokens below
  unfold primary
  dsimp only
  split
  case h_1 position rest =>
    rw [List.length_cons] at below
    exact outcome_inBrackets (sound_listUpTo sound Starts.pattern .square
      (Nat.le_succ _) rest (by omega)) [] Pattern.list fun _ _ => .list
  case h_2 position rest =>
    rw [List.length_cons] at below
    exact outcome_inBrackets (sound_listUpTo (sound_keyedEntry sound) Starts.entry .curly
      (Nat.le_succ _) rest (by omega)) [] (Pattern.keyed .map) fun _ _ => .map
  case h_3 position rest =>
    rw [List.length_cons] at below
    refine ((sound rest (by omega)).widen (List.subset_cons_self _ _)).bind ?_
    rintro ⟨inner, rest⟩ ⟨taken, rfl, holds⟩
    refine ((outcome_behind endPosition (.closing .round) rest).widen ?_).bind ?_
    · exact List.Subset.trans (List.subset_append_right _ _) (List.subset_cons_self _ _)
    · rintro rest ⟨positionToo, rfl⟩
      refine ⟨⟨.opening .round, position⟩ :: taken ++ [⟨.closing .round, positionToo⟩],
        by simp, ?_⟩
      rw [List.map_append, List.map_cons]
      exact .group holds
  case h_4 minimum lazy position rest =>
    exact ⟨[⟨.repetition minimum lazy, position⟩], rfl, .repetition minimum lazy⟩
  case h_5 source position rest =>
    split
    case h_1 message fails => exact .inr ⟨source, message, List.mem_cons_self, fails, rfl⟩
    case h_2 expression compiled =>
      split
      case h_1 positionToo rest =>
        simp only [List.length_cons] at below
        exact outcome_inBrackets (sound_listUpTo sound Starts.pattern .round (Nat.le_succ _)
          rest (by omega)) [⟨.regex source, position⟩] (Pattern.deconstruct (.regex expression))
          fun _ _ => .regexCall compiled
      case h_2 => exact ⟨[⟨.regex source, position⟩], rfl, .regex compiled⟩
  case h_6 name position positionToo rest =>
    simp only [List.length_cons] at below
    exact outcome_inBrackets (sound_listUpTo sound Starts.pattern .round (Nat.le_succ _)
      rest (by omega)) [⟨.name name, position⟩] (called name)
      fun _ items listed => .call listed (callPhrase_called name items)
  case h_7 tag position positionToo rest =>
    simp only [List.length_cons] at below
    exact outcome_inBrackets (sound_listUpTo (sound_keyedField sound) Starts.field .curly
      (Nat.le_succ _) rest (by omega)) [⟨.name tag, position⟩] (Pattern.keyed (.record tag))
      fun _ _ => .record tag
  case h_8 name position rest _ _ =>
    split
    case h_1 pattern means =>
      exact ⟨[⟨.name name, position⟩], rfl, .name (namePhrase_of_meaning? means)⟩
    case h_2 => exact .refuse _ _ _
  case h_9 token rest _ _ _ _ _ _ _ _ =>
    split
    case h_1 literal found => exact ⟨[token], rfl, .literal (literal?_eq_some_iff.mp found)⟩
    case h_2 => exact .refuse _ _ _
  case h_10 => exact .refuse _ _ _

theorem sound_negated (sound : Sound Regex.Fails limit PrimaryPhrase reader) :
    Sound Regex.Fails limit NegationPhrase (negated reader) := by
  intro tokens below
  have plain : Outcome Regex.Fails tokens (Taken NegationPhrase tokens) (reader tokens) :=
    (sound tokens below).imp fun _ => fun ⟨taken, split, holds⟩ => ⟨taken, split, .alone holds⟩
  induction tokens with
  | nil => exact plain
  | cons token rest induction =>
      unfold negated
      split
      case h_1 position others equal =>
        cases equal
        rw [List.length_cons] at below
        have shorter : rest.length < limit := by omega
        refine ((induction shorter ?_).widen (List.subset_cons_self _ _)).bind ?_
        · exact (sound rest shorter).imp
            fun _ => fun ⟨taken, split, holds⟩ => ⟨taken, split, .alone holds⟩
        · rintro ⟨operand, rest⟩ ⟨taken, rfl, holds⟩
          exact ⟨⟨.bang, position⟩ :: taken, rfl, .negation holds⟩
      case h_2 => exact plain

theorem sound_conjunction (sound : Sound Regex.Fails limit NegationPhrase reader)
    (enough : limit ≤ allowance + 1) :
    Sound Regex.Fails limit ConjunctionPhrase (conjunction allowance reader) := by
  intro tokens below
  refine (sound_operands sound Starts.negation .ampersand enough tokens below).bind ?_
  rintro ⟨operands, rest⟩ ⟨taken, split, joined⟩
  exact ⟨taken, split, conjunctionPhrase_iff.mpr ⟨operands, joined, rfl⟩⟩

theorem sound_choice (sound : Sound Regex.Fails limit ConjunctionPhrase reader)
    (enough : limit ≤ allowance + 1) :
    Sound Regex.Fails limit PatternPhrase (choice allowance reader) := by
  intro tokens below
  refine (sound_operands sound Starts.conjunction .bar enough tokens below).bind ?_
  rintro ⟨operands, rest⟩ ⟨taken, split, joined⟩
  exact ⟨taken, split, patternPhrase_iff.mpr ⟨operands, joined, rfl⟩⟩

end Patterns

theorem sound_pattern [Regex.Engine] [BEq α] (endPosition allowance : Nat) :
    Sound Regex.Fails allowance PatternPhrase
      (pattern endPosition allowance : Reader (Pattern α)) := by
  induction allowance with
  | zero =>
      intro tokens below
      omega
  | succ allowance induction =>
      exact sound_choice (sound_conjunction (sound_negated (sound_primary induction))
        (Nat.le_refl _)) (Nat.le_refl _)

end Reading

end Destructure
