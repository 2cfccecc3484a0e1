import Destructure.Proofs.Matching.FirstSolution
import Destructure.Proofs.Matching.Remainders
import Destructure.Proofs.Matching.Replacement

/-!
Patterns that neither bind nor ask anything. Whether such a pattern matches a value depends on
nothing but the value, however it comes to be tested and whatever has been bound before, so that a
pattern made of tests is one itself and can be understood from its parts.
-/

namespace Destructure

variable {α : Type}

namespace Pattern

section

variable [BEq α] (registry : Registry α) (options : Options)

def Accepts (pattern : Pattern α) (value : Value α) : Prop :=
  ∃ matcher, Matcher.compile pattern registry options = .ok matcher ∧ matcher.isMatch value

def Decides (pattern : Pattern α) (holds : Value α → Prop) : Prop :=
  ∃ matcher, Matcher.compile pattern registry options = .ok matcher ∧
    ∀ value, matcher.isMatch value ↔ holds value

def Agrees (pattern pattern' : Pattern α) : Prop :=
  ∃ matcher matcher', Matcher.compile pattern registry options = .ok matcher ∧
    Matcher.compile pattern' registry options = .ok matcher' ∧
    ∀ value, matcher.isMatch value = matcher'.isMatch value

variable {registry options}

theorem Decides.accepts_iff {pattern : Pattern α} {holds : Value α → Prop}
    (decides : pattern.Decides registry options holds) (value : Value α) :
    pattern.Accepts registry options value ↔ holds value := by
  rcases decides with ⟨matcher, compiled, isMatch⟩
  rw [← isMatch value]
  constructor
  · rintro ⟨other, compiledToo, found⟩
    rw [compiled] at compiledToo
    cases compiledToo
    exact found
  · exact fun found => ⟨matcher, compiled, found⟩

theorem Decides.agree {pattern pattern' : Pattern α} {holds : Value α → Prop}
    (decides : pattern.Decides registry options holds)
    (decides' : pattern'.Decides registry options holds) :
    pattern.Agrees registry options pattern' := by
  rcases decides with ⟨matcher, compiled, isMatch⟩
  rcases decides' with ⟨matcher', compiled', isMatch'⟩
  refine ⟨matcher, matcher', compiled, compiled', fun value => ?_⟩
  rw [Bool.eq_iff_iff, isMatch, isMatch']

theorem Decides.congr {pattern : Pattern α} {holds holdsToo : Value α → Prop}
    (decides : pattern.Decides registry options holds)
    (same : ∀ value, holds value ↔ holdsToo value) :
    pattern.Decides registry options holdsToo := by
  rcases decides with ⟨matcher, compiled, isMatch⟩
  exact ⟨matcher, compiled, fun value => (isMatch value).trans (same value)⟩

end

/-! ## Tests -/

structure IsTest [BEq α] (registry : Registry α) (pattern : Pattern α) : Prop where
  takes : pattern.takesValue
  made : pattern.Made
  silent : pattern.Silent
  shapes : ∀ name ∈ pattern.shapeNames, registry.contains name

def Holds [BEq α] (registry : Registry α) (greed : Greed) (pattern : Pattern α)
    (value : Value α) : Prop :=
  pattern.itemWays registry greed value [] ≠ []

section

variable [BEq α] {registry : Registry α} {pattern : Pattern α}

theorem isTest_iff (options : Options) : IsTest registry pattern ↔
    pattern.Silent ∧ ∃ matcher, Matcher.compile pattern registry options = .ok matcher := by
  rw [Matcher.compile_eq_ok_iff_made]
  constructor
  · rintro ⟨takes, made, silent, shapes⟩
    refine ⟨silent, ⟨takes, made, fun _ => ?_⟩, shapes⟩
    rw [silent.unbound]
    exact List.nodup_nil
  · rintro ⟨silent, ⟨takes, made, -⟩, shapes⟩
    exact ⟨takes, made, silent, shapes⟩

/-- Nothing has been bound where a test has matched, so its first way is its first solution. -/
theorem IsTest.solutions_isEmpty (test : IsTest registry pattern) (options : Options)
    (value : Value α) :
    (pattern.solutions registry options value).isEmpty =
      (pattern.itemWays registry options.defaultGreed value []).isEmpty := by
  rcases plain_of_takesValue test.takes with ⟨-, isSequence, isCondition⟩
  have silent : Named.Silent (pattern.itemWays registry options.defaultGreed value) :=
    ((silent_ways registry options.defaultGreed).item pattern test.silent).1 value
  rw [solutions, rowWays_unit registry _ isCondition rfl, unitWays, isSequence]
  simp only [Bool.false_eq_true, if_false, Way.single_cons, rowWays]
  rw [silent []]
  cases pattern.itemWays registry options.defaultGreed value [] <;> rfl

theorem IsTest.decides (test : IsTest registry pattern) (options : Options) :
    pattern.Decides registry options (pattern.Holds registry options.defaultGreed) := by
  rcases ((isTest_iff options).mp test).2 with ⟨matcher, compiled⟩
  refine ⟨matcher, compiled, fun value => ?_⟩
  have isEmpty := test.solutions_isEmpty options value
  rw [Matcher.isMatch, Matcher.matches?, (Matcher.compiled_of_compile compiled).bindingsOf_search,
    Holds, ne_eq, ← List.isEmpty_iff, ← isEmpty]
  cases pattern.solutions registry options value <;> simp

/-! ## Tests made of tests -/

/-- A node whose parts are all tests is one itself if it is neither repetition, group nor condition,
binds nothing, has a shape that can be found and is filled as it has to be. -/
theorem isTest_of_parts (takes : pattern.takesValue) (unbound : pattern.boundName? = none)
    (known : ∀ name ∈ pattern.shapeName?, registry.contains name) (filled : pattern.Filled)
    (tests : ∀ part ∈ pattern.parts, IsTest registry part) :
    IsTest registry pattern := by
  have silentParts : ∀ part ∈ pattern.parts, part.Silent := fun part member =>
    (tests part member).silent
  have silent : pattern.Silent := by
    constructor
    · rw [boundNames_eq, unbound, boundNames_of_silent silentParts]
      rfl
    · rw [holdsCondition_eq, (plain_of_takesValue takes).2.2,
        any_holdsCondition_of_silent silentParts]
      rfl
  have alone : ∀ part ∈ pattern.parts, part.takesValue := fun part member =>
    (tests part member).takes
  refine ⟨takes, ?_, silent, ?_⟩
  · rw [made_iff]
    exact ⟨⟨⟨fun _ => silent.unbound, fun _ => silent.unconditional, fun _ => alone,
      fun _ => conditionsLast_of_silent silentParts⟩, founded_of_takesValue alone, filled⟩,
      fun part member => (tests part member).made⟩
  · rw [shapeNames_of_parts]
    intro name among
    rcases List.mem_append.mp among with own | inner
    · exact known name (Option.mem_toList.mp own)
    · rcases List.mem_flatMap.mp inner with ⟨part, member, inside⟩
      exact (tests part member).shapes name inside

/-- Whatever is to be matched behind a test goes on with what has been bound before it. -/
theorem IsTest.flatMap_ne_nil_iff {β : Type} (test : IsTest registry pattern) {greed : Greed}
    {value : Value α} {bound : Named (Value α)} {next : Named (Value α) → List β} :
    (pattern.itemWays registry greed value bound).flatMap next ≠ [] ↔
      pattern.Holds registry greed value ∧ next bound ≠ [] := by
  have silent : Named.Silent (pattern.itemWays registry greed value) :=
    ((silent_ways registry greed).item pattern test.silent).1 value
  rw [silent bound, List.flatMap_map, Holds]
  by_cases stops : next bound = [] <;> cases pattern.itemWays registry greed value [] <;>
    simp [stops]

/-! ## Rows of tests -/

section Rows

variable {greed : Greed} {value : Value α}

theorem entryWays_ne_nil_iff {entries : List (Value α × Pattern α)}
    (tests : ∀ item ∈ entries.map Prod.snd, IsTest registry item) (values : List (Value α))
    (bound : Named (Value α)) :
    entryWays registry greed entries values bound ≠ [] ↔
      List.Forall₂ (Holds registry greed) (entries.map Prod.snd) values := by
  induction entries generalizing values with
  | nil => cases values <;> simp [entryWays]
  | cons entry entries induction =>
      rcases entry with ⟨key, item⟩
      rcases List.forall_mem_cons.mp tests with ⟨test, others⟩
      cases values with
      | nil => simp [entryWays]
      | cons value values =>
          rw [entryWays, test.flatMap_ne_nil_iff, induction others, List.map_cons,
            List.forall₂_cons]

theorem holds_keyed {shape : KeyedShape} {entries : List (Value α × Pattern α)}
    (tests : ∀ item ∈ entries.map Prod.snd, IsTest registry item) :
    (keyed shape entries).Holds registry greed value ↔
      ∃ parts, shape.lookup? (entries.map Prod.fst) value = some parts ∧
        List.Forall₂ (Holds registry greed) (entries.map Prod.snd) parts := by
  rw [Holds, itemWays]
  cases found : shape.lookup? (entries.map Prod.fst) value with
  | none => simp
  | some parts =>
      rw [entryWays_ne_nil_iff tests]
      simp

theorem holds_deconstruct {shape : Shape} {items : List (Pattern α)}
    (tests : ∀ item ∈ items, IsTest registry item) :
    (deconstruct shape items).Holds registry greed value ↔
      ∃ parts, registry.decompose shape value = .ok (some parts) ∧
        List.Forall₂ (Holds registry greed) items parts := by
  -- A row of tests is matched like entries, whatever their keys.
  have row : items = (items.map fun item => ((.nil : Value α), item)).map Prod.snd := by
    rw [List.map_map]
    exact (List.map_id items).symm
  have alone : ∀ item ∈ items, item.takesValue := fun item member => (tests item member).takes
  rw [Holds, itemWays]
  split
  case h_1 parts decomposed =>
    rw [row] at tests alone ⊢
    rw [complete_rowWays_entries registry greed alone, entryWays_ne_nil_iff tests]
    simp [decomposed]
  case h_2 rejected =>
    simp only [ne_eq, not_true_eq_false, false_iff]
    rintro ⟨parts, decomposed, -⟩
    exact rejected parts decomposed

end Rows

end

end Pattern

end Destructure
