import Destructure.Proofs.Reading.Completeness
import Destructure.Regex.Search

/-!
Reading tokens to their end succeeds for the phrases of the grammar and for nothing else. What a
phrase stands for is unique, because a reader answers once; and where reading fails, the reason is
a place at which something else was expected.
-/

namespace Destructure.Reading

variable {α Result : Type}

section Whole

variable {invalid : String → String → Prop} {phrase : List Lexeme → Result → Prop}
variable {follows : Lexeme → Prop}
variable {expression : (endPosition allowance : Nat) → Reader Result} {endPosition : Nat}

theorem readWhole_eq_ok_iff
    (sound : ∀ allowance, Sound invalid allowance phrase (expression endPosition allowance))
    (reads : ∀ allowance, Reads allowance phrase follows (expression endPosition allowance))
    (tokens : List Token) (result : Result) :
    readWhole expression endPosition tokens = .ok result ↔
      phrase (tokens.map Token.lexeme) result := by
  constructor
  · intro read
    have outcome := sound (tokens.length + 1) tokens (Nat.lt_succ_self _)
    unfold readWhole at read
    split at read
    case h_1 => cases read
    case h_2 equal =>
      cases read
      rw [equal] at outcome
      rcases outcome with ⟨taken, rfl, holds⟩
      rwa [List.append_nil]
    case h_3 rest _ _ => cases rest <;> cases read
  · intro holds
    have read := reads (tokens.length + 1) tokens [] result holds
      (by rw [List.append_nil]; exact Nat.lt_succ_self _)
      (fun next member => by cases member)
    rw [List.append_nil] at read
    rw [readWhole, read]

theorem justified_of_readWhole
    (sound : ∀ allowance, Sound invalid allowance phrase (expression endPosition allowance))
    {tokens : List Token} {failure : ReadFailure}
    (failed : readWhole expression endPosition tokens = .error failure) :
    failure.Justified invalid tokens := by
  have outcome := sound (tokens.length + 1) tokens (Nat.lt_succ_self _)
  unfold readWhole at failed
  split at failed
  case h_1 equal =>
    cases failed
    rwa [equal] at outcome
  case h_2 => cases failed
  case h_3 rest _ _ => cases rest <;> (cases failed; exact .inl ⟨_, rfl⟩)

/-- A phrase stands for one thing only. -/
theorem phrase_unique
    (reads : ∀ allowance, Reads allowance phrase follows (expression 0 allowance))
    {lexemes : List Lexeme} {first second : Result} (holds : phrase lexemes first)
    (holdsToo : phrase lexemes second) : first = second := by
  have read : ∀ result, phrase lexemes result →
      expression 0 (lexemes.length + 1) (lexemes.map fun lexeme => ⟨lexeme, 0⟩) =
        .ok (result, []) := by
    intro result holds
    have read := reads (lexemes.length + 1) (lexemes.map fun lexeme => ⟨lexeme, 0⟩) [] result
      (by rwa [List.map_map, show Token.lexeme ∘ (⟨·, 0⟩) = id from rfl, List.map_id])
      (by rw [List.append_nil, List.length_map]; exact Nat.lt_succ_self _)
      (fun next member => by cases member)
    rwa [List.append_nil] at read
  have same := (read first holds).symm.trans (read second holdsToo)
  cases same
  rfl

end Whole

variable [BEq α]

theorem readWhole_pattern_iff [Regex.Engine] (endPosition : Nat) (tokens : List Token)
    (result : Pattern α) :
    readWhole pattern endPosition tokens = .ok result ↔
      PatternPhrase (tokens.map Token.lexeme) result :=
  readWhole_eq_ok_iff (sound_pattern endPosition) (reads_pattern endPosition) tokens result

theorem readWhole_value_iff (endPosition : Nat) (tokens : List Token) (result : Value α) :
    readWhole value endPosition tokens = .ok result ↔
      ValuePhrase (tokens.map Token.lexeme) result :=
  readWhole_eq_ok_iff (sound_value (fun _ _ => False) endPosition) (reads_value endPosition) tokens
    result

theorem readAll_eq_ok_iff {expression : (endPosition allowance : Nat) → Reader Result}
    {phrase : List Lexeme → Result → Prop}
    (accepts : ∀ endPosition tokens result, readWhole expression endPosition tokens = .ok result ↔
      phrase (tokens.map Token.lexeme) result) (source : String) (result : Result) :
    readAll expression source = .ok result ↔
      ∃ tokens, Token.scan source.toList = .ok tokens ∧
        phrase (tokens.map Token.lexeme) result := by
  rw [readAll]
  cases scanned : Token.scan source.toList with
  | error error =>
      constructor
      · intro read
        cases read
      · rintro ⟨tokens, equal, -⟩
        cases equal
  | ok tokens =>
      constructor
      · intro read
        exact ⟨tokens, rfl, (accepts _ _ _).mp read⟩
      · rintro ⟨_, equal, holds⟩
        cases equal
        exact (accepts _ _ _).mpr holds

/-- Tokens whose regular expressions are valid are read as a pattern exactly if they are a phrase
of the grammar for it, and a text is read as a value exactly if its tokens are a phrase for the
value. There is no second pattern or value for the same lexemes, and everything else is refused at
a place. -/
theorem readers_accept_grammar [Regex.Engine] :
    (∀ endPosition tokens,
      (∀ result : Pattern α, readWhole pattern endPosition tokens = .ok result ↔
        PatternPhrase (tokens.map Token.lexeme) result) ∧
      ((∀ source, .regex source ∈ tokens.map Token.lexeme → (Regex.compile source).isOk) →
        ∀ failure, (readWhole pattern endPosition tokens : Except ReadFailure (Pattern α)) =
          .error failure → ∃ error, failure = .refused error)) ∧
    (∀ lexemes, ∀ first second : Pattern α,
      PatternPhrase lexemes first → PatternPhrase lexemes second → first = second) ∧
    (∀ source,
      (∀ result : Value α, Value.parse source = .ok result ↔
        ∃ tokens, Token.scan source.toList = .ok tokens ∧
          ValuePhrase (tokens.map Token.lexeme) result) ∧
      ∀ failure, (Value.parse source : Except ReadFailure (Value α)) = .error failure →
        ∃ error, failure = .refused error) ∧
    (∀ lexemes, ∀ first second : Value α,
      ValuePhrase lexemes first → ValuePhrase lexemes second → first = second) := by
  refine ⟨?_, fun _ _ _ => phrase_unique (reads_pattern 0), ?_,
    fun _ _ _ => phrase_unique (reads_value 0)⟩
  · intro endPosition tokens
    refine ⟨readWhole_pattern_iff endPosition tokens, ?_⟩
    intro valid failure failed
    rcases justified_of_readWhole (sound_pattern endPosition) failed with
      refused | ⟨source, message, member, fails, -⟩
    · exact refused
    · have compiled := valid source member
      rw [show Regex.compile source = .error message from fails] at compiled
      cases compiled
  · intro source
    refine ⟨readAll_eq_ok_iff readWhole_value_iff source, ?_⟩
    intro failure failed
    unfold Value.parse readAll at failed
    dsimp only at failed
    split at failed
    case h_1 error _ =>
      cases failed
      exact ⟨error, rfl⟩
    case h_2 =>
      rcases justified_of_readWhole (sound_value (fun _ _ => False) _) failed with
        refused | ⟨_, _, _, impossible, _⟩
      · exact refused
      · cases impossible

section BuiltIn

attribute [local instance] Regex.Engine.builtIn

theorem stray_comma_refused :
    (∀ source, Lexeme.regex source ∈ [.regex "a|b", .comma] → (Regex.compile source).isOk) ∧
    (readWhole pattern 6 [⟨.regex "a|b", 0⟩, ⟨.comma, 5⟩] : Except ReadFailure (Pattern Empty)) =
      .error (.refused ⟨5, .expected .endOfInput (some .comma)⟩) ∧
    ∃ error, ReadFailure.refused ⟨5, .expected .endOfInput (some .comma)⟩ = .refused error := by
  have valid : ∀ source, Lexeme.regex source ∈ [.regex "a|b", .comma] →
      (Regex.compile source).isOk := by
    intro source member
    simp at member
    subst member
    decide
  have refused : (readWhole pattern 6 [⟨.regex "a|b", 0⟩, ⟨.comma, 5⟩] :
      Except ReadFailure (Pattern Empty)) =
        .error (.refused ⟨5, .expected .endOfInput (some .comma)⟩) := by
    rfl
  exact ⟨valid, refused,
    (readers_accept_grammar.1 6 [⟨.regex "a|b", 0⟩, ⟨.comma, 5⟩]).2 valid _ refused⟩

end BuiltIn

end Destructure.Reading
