import Destructure.Proofs.Matching.Tests
import Destructure.Proofs.Reading.Completeness
import Destructure.Proofs.Regex.WholeTexts

/-!
Regular expressions that are written without items. The reader fills in as many wildcards as it
expects parts from the expression, before there is a text; how many parts there are is seen from
what a match captured. These numbers are the same, so that nothing but the match itself counts.

Main statement: `Reading.bare_regex_ignores_captures`.
-/

namespace Destructure

variable {α : Type}

namespace Regex

/-! ## The number of parts -/

theorem length_of_parts? {regex : Regex} {text : String} {parts : List (Option String)}
    (counted : regex.Counted) (divided : regex.parts? text = some parts) :
    parts.length = regex.partCount := by
  obtain ⟨captures, captured, rfl⟩ := Option.map_eq_some_iff.mp divided
  have length : captures.groups.length + 1 = regex.captureCount := counted text captures captured
  rw [partCount, ← length]
  split
  next single =>
    have : captures.groups.length + 1 = 1 := single
    rw [List.length_singleton]
    omega
  next several =>
    have : captures.groups.length + 1 ≠ 1 := several
    rw [List.length_map]
    omega

def Accepts (regex : Regex) (value : Value α) : Prop :=
  ∃ text, (value = .string text ∨ value = .symbol text) ∧ (regex.captures? text).isSome

end Regex

namespace Decomposer

theorem length_of_regex {regex : Regex} {value : Value α} {parts : List (Value α)}
    (counted : regex.Counted) (accepted : Decomposer.regex regex value = some parts) :
    parts.length = regex.partCount := by
  unfold Decomposer.regex at accepted
  simp only [Option.bind_eq_bind, Option.bind_eq_some_iff] at accepted
  obtain ⟨text, -, texts, divided, made⟩ := accepted
  cases made
  rw [List.length_map, Regex.length_of_parts? counted divided]

theorem exists_regex_eq_some_iff (regex : Regex) (value : Value α) :
    (∃ parts, Decomposer.regex regex value = some parts) ↔ regex.Accepts value := by
  constructor
  · rintro ⟨parts, accepted⟩
    obtain ⟨text, captures, isText, captured, -⟩ := exists_captures_of_regex accepted
    exact ⟨text, isText, Option.isSome_iff_exists.mpr ⟨captures, captured⟩⟩
  · rintro ⟨text, isText, captured⟩
    have isText : value.text? = some text := by rcases isText with rfl | rfl <;> rfl
    have divided : (Decomposer.regex regex value).isSome := by
      obtain ⟨captures, captured⟩ := Option.isSome_iff_exists.mp captured
      rw [Decomposer.regex, isText, Option.bind_eq_bind, Option.bind_some, Regex.parts?, captured]
      rfl
    exact Option.isSome_iff_exists.mp divided

end Decomposer

namespace Pattern

variable [BEq α] {registry : Registry α}

/-! ## Wildcards -/

theorem isTest_wildcard (registry : Registry α) : IsTest registry (.wildcard : Pattern α) :=
  isTest_of_parts rfl rfl (fun _ isNamed => by cases isNamed) trivial (List.forall_mem_nil _)

theorem isTest_of_mem_wildcards (registry : Registry α) {count : Nat} {item : Pattern α}
    (member : item ∈ List.replicate count .wildcard) : IsTest registry item := by
  rw [List.eq_of_mem_replicate member]
  exact isTest_wildcard registry

theorem holds_wildcard {greed : Greed} (value : Value α) :
    (wildcard : Pattern α).Holds registry greed value := by
  rw [Holds, itemWays]
  exact List.cons_ne_nil _ _

theorem forall₂_holds_wildcards {greed : Greed} {count : Nat} {parts : List (Value α)} :
    List.Forall₂ (Holds registry greed) (List.replicate count .wildcard) parts ↔
      parts.length = count := by
  induction count generalizing parts with
  | zero => rw [List.replicate_zero, List.forall₂_nil_left_iff, List.length_eq_zero_iff]
  | succ count induction =>
      cases parts with
      | nil => simp [List.replicate_succ]
      | cons part parts =>
          rw [List.replicate_succ, List.forall₂_cons, induction, List.length_cons,
            Nat.add_right_cancel_iff]
          exact and_iff_right (holds_wildcard part)

theorem isTest_bareRegex (registry : Registry α) (regex : Regex) (count : Nat) :
    IsTest registry (.deconstruct (.regex regex) (List.replicate count .wildcard)) :=
  isTest_of_parts rfl rfl (fun _ isNamed => by cases isNamed) trivial fun _ member =>
    isTest_of_mem_wildcards registry member

theorem holds_bareRegex {greed : Greed} {regex : Regex} {value : Value α}
    (counted : regex.Counted) :
    (deconstruct (.regex regex) (List.replicate regex.partCount .wildcard)).Holds registry greed
      value ↔ regex.Accepts value := by
  rw [holds_deconstruct fun _ member => isTest_of_mem_wildcards registry member,
    ← Decomposer.exists_regex_eq_some_iff]
  refine exists_congr fun parts => ?_
  rw [forall₂_holds_wildcards]
  constructor
  · rintro ⟨decomposed, -⟩
    exact Except.ok.inj decomposed
  · exact fun accepted => ⟨congrArg Except.ok accepted,
      Decomposer.length_of_regex counted accepted⟩

end Pattern

namespace Reading

variable [BEq α]

/-- A regular expression that is written without items matches the texts that it accepts and
nothing else, whatever its groups capture. All that is asked of the engine is that a match has as
many captures as it announces. -/
theorem bare_regex_ignores_captures [Regex.Engine] {source : String} {regex : Regex}
    (compiled : Regex.compile source = .ok regex)
    (counted : ∀ text captures, regex.captures? text = some captures →
      captures.size = regex.captureCount)
    {endPosition allowance : Nat} {reader : Reader (Pattern α)} {position : Nat} {rest : List Token}
    (bare : ∀ next ∈ rest.head?, next.lexeme ≠ .opening .round) (registry : Registry α)
    (options : Options) :
    ∃ pattern matcher,
      primary endPosition allowance reader (⟨.regex source, position⟩ :: rest) =
        .ok (pattern, rest) ∧
      Matcher.compile pattern registry options = .ok matcher ∧
      ∀ value, matcher.isMatch value ↔
        ∃ text, (value = .string text ∨ value = .symbol text) ∧
          (regex.captures? text).isSome := by
  have test := Pattern.isTest_bareRegex registry regex regex.partCount
  obtain ⟨matcher, compiles, isMatch⟩ := test.decides options
  refine ⟨_, matcher, primary_bareRegex compiled bare, compiles, fun value => ?_⟩
  rw [isMatch, Pattern.holds_bareRegex counted]
  rfl

section BuiltIn

attribute [local instance] Regex.Engine.builtIn

/-- Two groups, one in the other and one with a name, and a match that neither takes part in. -/
theorem absent_groups_ignored :
    ∃ regex pattern matcher, Regex.compile "(a(?P<tail>b)?)|c" = .ok regex ∧
      regex.captureCount = 3 ∧ regex.Counted ∧ regex.parts? "c" = some [none, none] ∧
      primary 20 1 (Reading.pattern 20 1) [⟨.regex "(a(?P<tail>b)?)|c", 0⟩, ⟨.comma, 19⟩] =
        .ok (pattern, [⟨.comma, 19⟩]) ∧
      Matcher.compile pattern (.standard : Registry Empty) {} = .ok matcher ∧
      matcher.isMatch (.symbol "c") ∧ ¬matcher.isMatch (.string "b") := by
  have computed : (Regex.compile "(a(?P<tail>b)?)|c").toOption.map (fun regex =>
      (regex.captureCount, regex.parts? "c", (regex.captures? "c").isSome,
        (regex.captures? "b").isSome)) = some (3, some [none, none], true, false) := by
    decide +kernel
  obtain ⟨regex, made, results⟩ := Option.map_eq_some_iff.mp computed
  simp only [Prod.mk.injEq] at results
  obtain ⟨count, parts, found, missed⟩ := results
  have compiled := Regex.compile_of_toOption made
  have counted : regex.Counted :=
    Regex.Engine.lawful_builtIn.counts (Regex.compile_eq_ok_iff.mp compiled).2
  have bare : ∀ next ∈ [(⟨.comma, 19⟩ : Token)].head?, next.lexeme ≠ .opening .round := by
    rintro next ⟨⟩
    decide
  obtain ⟨pattern, matcher, read, compiles, isMatch⟩ :=
    @bare_regex_ignores_captures Empty _ _ _ _ compiled counted 20 1 (Reading.pattern 20 1) 0 _
      bare .standard {}
  refine ⟨regex, pattern, matcher, compiled, count, counted, parts, read, compiles, ?_, ?_⟩
  · exact (isMatch _).mpr ⟨"c", .inr rfl, found⟩
  · intro matched
    obtain ⟨text, isText, finds⟩ := (isMatch _).mp matched
    have isText : "b" = text := by simpa using isText
    rw [← isText, missed] at finds
    cases finds

end BuiltIn

end Reading

end Destructure
