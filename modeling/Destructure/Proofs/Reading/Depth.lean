import Destructure.Proofs.Reading.Agreement
import Destructure.Regex.Search

/-!
How far and how deep reading goes. Each construct of the grammar has a reader, and these readers
call one another. With an allowance for the tokens at hand, every reader advances: it ends behind
the place where it began, or is stopped by something that stands from there on. Its calls are
nested no deeper than five for each token and six more, and a list is read in no more rounds than
there are tokens, and one more.
-/

namespace Destructure.Reading

variable {α Result : Type} {endPosition : Nat}

inductive Construct where
  | pattern
  | conjunction
  | negation
  | primary
  | entry
  | field
  | value

namespace Construct

abbrev Meaning (α : Type) : Construct → Type
  | pattern | conjunction | negation | primary => Pattern α
  | entry | field => Value α × Pattern α
  | value => Value α

def Phrase [Regex.Engine] [BEq α] : (construct : Construct) → List Lexeme → construct.Meaning α → Prop
  | pattern => PatternPhrase
  | conjunction => ConjunctionPhrase
  | negation => NegationPhrase
  | primary => PrimaryPhrase
  | entry => EntryPhrase PatternPhrase
  | field => FieldPhrase PatternPhrase
  | value => ValuePhrase

theorem starts [Regex.Engine] [BEq α] (construct : Construct) :
    Starts (construct.Phrase : List Lexeme → construct.Meaning α → Prop) := by
  cases construct with
  | pattern => exact .pattern
  | conjunction => exact .conjunction
  | negation => exact .negation
  | primary => exact .primary
  | entry => exact .entry
  | field => exact .field
  | value => exact .value

end Construct

def reader (α : Type) [Regex.Engine] [BEq α] (endPosition most : Nat) :
    (construct : Construct) → Reader (construct.Meaning α)
  | .pattern => pattern endPosition (most + 1)
  | .conjunction =>
    conjunction most (negated (primary endPosition most (pattern endPosition most)))
  | .negation => negated (primary endPosition most (pattern endPosition most))
  | .primary => primary endPosition most (pattern endPosition most)
  | .entry => keyedEntry endPosition (most + 1) (pattern endPosition (most + 1))
  | .field => keyedField endPosition (pattern endPosition (most + 1))
  | .value => value endPosition (most + 1)

section Readers

variable [Regex.Engine] [BEq α]

theorem local_reader (most : Nat) (construct : Construct) :
    Local endPosition (reader α endPosition most construct) := by
  have inner : Local endPosition (pattern endPosition most : Reader (Pattern α)) :=
    local_pattern endPosition most
  have whole : Local endPosition (pattern endPosition (most + 1) : Reader (Pattern α)) :=
    local_pattern endPosition (most + 1)
  cases construct with
  | pattern => exact whole
  | conjunction => exact local_conjunction (local_negated (local_primary inner))
  | negation => exact local_negated (local_primary inner)
  | primary => exact local_primary inner
  | entry => exact local_keyedEntry whole
  | field => exact local_keyedField whole
  | value => exact local_value endPosition (most + 1)

theorem sound_reader (most : Nat) (construct : Construct) :
    Sound Regex.Fails (most + 1) construct.Phrase (reader α endPosition most construct) := by
  have inner : Sound Regex.Fails most PatternPhrase (pattern endPosition most : Reader (Pattern α)) :=
    sound_pattern endPosition most
  have whole : Sound Regex.Fails (most + 1) PatternPhrase
      (pattern endPosition (most + 1) : Reader (Pattern α)) := sound_pattern endPosition (most + 1)
  cases construct with
  | pattern => exact whole
  | conjunction => exact sound_conjunction (sound_negated (sound_primary inner)) (Nat.le_refl _)
  | negation => exact sound_negated (sound_primary inner)
  | primary => exact sound_primary inner
  | entry => exact sound_keyedEntry whole
  | field => exact sound_keyedField whole
  | value => exact sound_value Regex.Fails endPosition (most + 1)

end Readers

/-! ## Places

The tokens that a reader is given are the last of all tokens, from some place on. -/

/-- Reading from a place ends at a later place, with the refusal of a token from the place on or of
what comes behind the last, or with a regular expression from the place on that is not valid. It
does not run out of its allowance. -/
def Advances [Regex.Engine] (endPosition : Nat) (tokens : List Token) (place : Nat) :
    Except ReadFailure (Result × List Token) → Prop
  | .ok answer => ∃ next, place < next ∧ next ≤ tokens.length ∧ answer.2 = tokens.drop next
  | .error (.refused error) =>
    error.position = endPosition ∨
      ∃ later token, place ≤ later ∧ tokens[later]? = some token ∧ error.position = token.position
  | .error (.badRegex message) =>
    ∃ later source position, place ≤ later ∧ tokens[later]? = some ⟨.regex source, position⟩ ∧
      Regex.compile source = .error message
  | .error .exhausted => False

theorem exists_place_of_mem_drop {tokens : List Token} {place : Nat} {token : Token}
    (member : token ∈ tokens.drop place) : ∃ later, place ≤ later ∧ tokens[later]? = some token := by
  rcases List.mem_iff_getElem?.mp member with ⟨index, found⟩
  rw [List.getElem?_drop] at found
  exact ⟨place + index, Nat.le_add_right _ _, found⟩

theorem advances_of_sound [Regex.Engine] {limit : Nat} {phrase : List Lexeme → Result → Prop}
    {reader : Reader Result} (sound : Sound Regex.Fails limit phrase reader)
    (stays : Local endPosition reader) (notNil : ∀ result, ¬phrase [] result)
    {tokens : List Token} {place : Nat} (below : tokens.length - place < limit) :
    Advances endPosition tokens place (reader (tokens.drop place)) := by
  have outcome := sound (tokens.drop place) (by rwa [List.length_drop])
  have here := stays (tokens.drop place)
  cases equal : reader (tokens.drop place) with
  | ok answer =>
      rw [equal] at outcome
      rcases outcome with ⟨taken, split, holds⟩
      have counted := congrArg List.length split
      rw [List.length_drop, List.length_append] at counted
      have takes : taken.length ≠ 0 := by
        intro empty
        rw [List.eq_nil_of_length_eq_zero empty] at holds
        exact notNil _ holds
      refine ⟨place + taken.length, by omega, by omega, ?_⟩
      rw [← List.drop_drop, split, List.drop_left]
  | error failure =>
      rw [equal] at outcome here
      rcases outcome with ⟨error, rfl⟩ | ⟨source, message, member, fails, rfl⟩
      · apply (here error rfl).imp_right
        intro member
        rcases List.mem_map.mp member with ⟨token, member, position⟩
        rcases exists_place_of_mem_drop member with ⟨later, le, found⟩
        exact ⟨later, token, le, found, position.symm⟩
      · rcases List.mem_map.mp member with ⟨⟨_, position⟩, member, rfl⟩
        rcases exists_place_of_mem_drop member with ⟨later, le, found⟩
        exact ⟨later, source, position, le, found, fails⟩

/-! ## Nested calls -/

/-- The readers once more, each of which hands on to the readers that it calls what is left of the
levels that it may take. A primary pattern takes a second level for a literal or an entry, and the
allowance of values is their number of levels. -/
def readerWithin (α : Type) [Regex.Engine] [BEq α] (endPosition : Nat) :
    (depth : Nat) → (construct : Construct) → Reader (construct.Meaning α)
  | 0, _ => fun _ => .error .exhausted
  | 1, .primary => fun _ => .error .exhausted
  | depth + 2, .primary => primary endPosition depth (readerWithin α endPosition depth .pattern)
  | depth + 1, .pattern => choice depth (readerWithin α endPosition depth .conjunction)
  | depth + 1, .conjunction => conjunction depth (readerWithin α endPosition depth .negation)
  | depth + 1, .negation =>
    negationOf (readerWithin α endPosition depth .negation)
      (readerWithin α endPosition depth .primary)
  | depth + 1, .entry => keyedEntry endPosition depth (readerWithin α endPosition depth .pattern)
  | depth + 1, .field => keyedField endPosition (readerWithin α endPosition depth .pattern)
  | depth + 1, .value => value endPosition (depth + 1)

def Construct.levels : Construct → Nat
  | entry | field => 6
  | pattern => 5
  | conjunction => 4
  | negation => 3
  | primary => 2
  | value => 1

section Within

variable [Regex.Engine] [BEq α]

theorem agree_readerWithin (depth count most : Nat) (construct : Construct)
    (deep : 5 * count + construct.levels ≤ depth) (enough : count ≤ most) :
    Agree (count + 1) (reader α endPosition most construct)
      (readerWithin α endPosition depth construct) := by
  -- The levels that are left carry the induction; the tokens only go down behind a bang and within
  -- brackets.
  fun_induction readerWithin α endPosition depth construct generalizing count most
  case case1 construct =>
    cases construct <;> (simp only [Construct.levels] at deep; omega)
  case case2 =>
    simp only [Construct.levels] at deep
    omega
  case case3 depth patterns =>
    simp only [Construct.levels] at deep patterns
    have inner : Agree count (pattern endPosition most)
        (readerWithin α endPosition depth .pattern) := by
      apply agree_of_succ
      rintro fewer rfl
      obtain ⟨most, rfl⟩ := Nat.exists_eq_add_one_of_ne_zero (Nat.ne_zero_of_lt enough)
      exact patterns fewer most (by omega) (by omega)
    exact agree_primary inner (local_pattern endPosition most) enough (by omega)
  case case4 depth conjunctions =>
    simp only [Construct.levels] at deep conjunctions
    exact agree_choice (conjunctions count most (by omega) enough)
      (local_reader most .conjunction) (Nat.succ_le_succ enough) (by omega)
  case case5 depth negations =>
    simp only [Construct.levels] at deep negations
    exact agree_conjunction (negations count most (by omega) enough)
      (local_reader most .negation) (Nat.succ_le_succ enough) (by omega)
  case case6 depth negations primaries =>
    simp only [Construct.levels] at deep negations primaries
    have operands : Agree count (reader α endPosition most .negation)
        (readerWithin α endPosition depth .negation) := by
      apply agree_of_succ
      rintro fewer rfl
      exact negations fewer most (by omega) (by omega)
    rw [show reader α endPosition most .negation = _ from negated_eq_negationOf _]
    exact agree_negationOf operands (primaries count most (by omega) enough)
  case case7 depth patterns =>
    simp only [Construct.levels] at deep patterns
    exact agree_keyedEntry (patterns count most (by omega) enough) (Nat.succ_le_succ enough)
      (by omega)
  case case8 depth patterns =>
    simp only [Construct.levels] at deep patterns
    exact agree_keyedField (patterns count most (by omega) enough)
  case case9 depth =>
    simp only [Construct.levels] at deep
    exact agree_value (Nat.succ_le_succ enough) (by omega)

/-- With an allowance for the tokens from a place on, every reader and every list of what it reads
advances from there, a list in at most one round more than there are tokens. Neither changes with
the allowance, nor if calls may be nested only five deep for each of these tokens and six more. -/
theorem readers_advance (construct : Construct) (endPosition : Nat) (tokens : List Token)
    (place most depth : Nat) (enough : tokens.length - place ≤ most)
    (deep : 5 * (tokens.length - place) + 6 ≤ depth) :
    Advances endPosition tokens place
      (reader α endPosition most construct (tokens.drop place)) ∧
    readerWithin α endPosition depth construct (tokens.drop place) =
      reader α endPosition most construct (tokens.drop place) ∧
    ∀ bracket rounds, tokens.length - place < rounds →
      Advances endPosition tokens place
        (listUpTo endPosition bracket (reader α endPosition most construct) rounds
          (tokens.drop place)) ∧
      listUpTo endPosition bracket (readerWithin α endPosition depth construct)
          (tokens.length - place + 1) (tokens.drop place) =
        listUpTo endPosition bracket (reader α endPosition most construct) rounds
          (tokens.drop place) := by
  have stays : Local endPosition (reader α endPosition most construct) :=
    local_reader most construct
  have sound : Sound Regex.Fails (tokens.length - place + 1) construct.Phrase
      (reader α endPosition most construct) :=
    fun tokens below => sound_reader most construct tokens (by omega)
  have agree : Agree (tokens.length - place + 1) (reader α endPosition most construct)
      (readerWithin α endPosition depth construct) := by
    apply agree_readerWithin depth _ most construct _ enough
    cases construct <;> (simp only [Construct.levels]; omega)
  have short : (tokens.drop place).length < tokens.length - place + 1 := by
    rw [List.length_drop]
    exact Nat.lt_succ_self _
  refine ⟨?_, (agree _ short).symm, ?_⟩
  · exact advances_of_sound sound stays construct.starts.not_nil (Nat.lt_succ_self _)
  · intro bracket rounds more
    constructor
    · refine advances_of_sound (sound_listUpTo sound construct.starts bracket more)
        (local_listUpTo stays bracket rounds) ?_ (Nat.lt_succ_self _)
      rintro results ⟨inner, empty, -⟩
      exact List.append_ne_nil_of_right_ne_nil inner (List.cons_ne_nil _ _) empty.symm
    · exact (agree_listUpTo agree stays bracket more (Nat.le_refl _) _ short).symm

end Within

section BuiltIn

attribute [local instance] Regex.Engine.builtIn

/-- One level less than a pattern may take is too little for a name. -/
example : readerWithin Nat 1 4 .pattern [⟨.name "x", 0⟩] = .error .exhausted ∧
    readerWithin Nat 1 5 .pattern [⟨.name "x", 0⟩] = .ok (.bind "x", []) := ⟨rfl, rfl⟩

/-- Behind the first of two bangs stands one negation, and a list of such patterns misses its end
behind the comma. -/
theorem negated_list_advances :
    let tokens : List Token := [⟨.bang, 0⟩, ⟨.bang, 1⟩, ⟨.opening .square, 2⟩, ⟨.name "x", 3⟩,
      ⟨.closing .square, 4⟩, ⟨.comma, 5⟩]
    tokens.length - 1 ≤ 5 ∧ 5 * (tokens.length - 1) + 6 ≤ 31 ∧ tokens.length - 1 < 6 ∧
    readerWithin Nat 6 31 .pattern (tokens.drop 1) =
      .ok (.not [.list [.bind "x"]], tokens.drop 5) ∧
    listUpTo 6 .round (reader Nat 6 5 .pattern) 6 (tokens.drop 1) =
      .error (.refused ⟨6, .expected .pattern none⟩) ∧
    Advances 6 tokens 1 (listUpTo 6 .round (reader Nat 6 5 .pattern) 6 (tokens.drop 1)) := by
  intro tokens
  have enough : tokens.length - 1 ≤ 5 := by decide
  have deep : 5 * (tokens.length - 1) + 6 ≤ 31 := by decide
  have rounds : tokens.length - 1 < 6 := by decide
  rcases readers_advance (α := Nat) .pattern 6 tokens 1 5 31 enough deep with ⟨-, same, lists⟩
  exact ⟨enough, deep, rounds, same.trans rfl, rfl, (lists .round 6 rounds).1⟩

end BuiltIn

end Destructure.Reading
