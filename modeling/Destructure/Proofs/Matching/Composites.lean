import Destructure.Proofs.Matching.Tests

/-!
Conjunctions, disjunctions and negations. The composites of tests are tests again, those that the
boolean operations make of them.
-/

namespace Destructure

variable {α : Type}

namespace Pattern

section

variable [BEq α] {registry : Registry α} {operand : Pattern α} {operands : List (Pattern α)}

theorem IsTest.and (some : operands ≠ []) (tests : ∀ operand ∈ operands, IsTest registry operand) :
    IsTest registry (.and operands) :=
  isTest_of_parts rfl rfl (fun _ => nofun) some tests

theorem IsTest.or (some : operands ≠ []) (tests : ∀ operand ∈ operands, IsTest registry operand) :
    IsTest registry (.or operands) :=
  isTest_of_parts rfl rfl (fun _ => nofun) some tests

theorem IsTest.not (test : IsTest registry operand) : IsTest registry (.not [operand]) :=
  isTest_of_parts rfl rfl (fun _ => nofun) rfl (List.forall_mem_singleton.mpr test)

variable {greed : Greed} {value : Value α}

theorem holds_and (tests : ∀ operand ∈ operands, IsTest registry operand) :
    (Pattern.and operands).Holds registry greed value ↔
      ∀ operand ∈ operands, operand.Holds registry greed value := by
  rw [Holds, itemWays]
  induction operands with
  | nil => simp [allWays]
  | cons operand operands induction =>
      rcases List.forall_mem_cons.mp tests with ⟨test, others⟩
      rw [allWays, test.flatMap_ne_nil_iff, induction others, List.forall_mem_cons]

theorem holds_or : (Pattern.or operands).Holds registry greed value ↔
    ∃ operand ∈ operands, operand.Holds registry greed value := by
  rw [Holds, itemWays, someWay_eq]
  simp [Holds]

theorem holds_not : (Pattern.not [operand]).Holds registry greed value ↔
    ¬operand.Holds registry greed value := by
  rw [Holds, itemWays, someWay_eq]
  simp [Holds]

end

/-! ## The boolean operations -/

section

variable [BEq α] {registry : Registry α} {options : Options} {operands : List (Pattern α)}

theorem decides_and (some : operands ≠ []) (tests : ∀ operand ∈ operands, IsTest registry operand) :
    (and operands).Decides registry options fun value =>
      ∀ operand ∈ operands, operand.Accepts registry options value := by
  refine ((IsTest.and some tests).decides options).congr fun value => ?_
  rw [holds_and tests]
  exact forall₂_congr fun operand member =>
    (((tests operand member).decides options).accepts_iff value).symm

theorem decides_or (some : operands ≠ []) (tests : ∀ operand ∈ operands, IsTest registry operand) :
    (or operands).Decides registry options fun value =>
      ∃ operand ∈ operands, operand.Accepts registry options value := by
  refine ((IsTest.or some tests).decides options).congr fun value => ?_
  rw [holds_or]
  exact exists_congr fun operand => and_congr_right fun member =>
    (((tests operand member).decides options).accepts_iff value).symm

theorem decides_not {operand : Pattern α} (test : IsTest registry operand) :
    (not [operand]).Decides registry options fun value =>
      ¬operand.Accepts registry options value := by
  refine (test.not.decides options).congr fun value => ?_
  rw [holds_not, (test.decides options).accepts_iff]

theorem not_not_agrees {operand : Pattern α} (test : IsTest registry operand) :
    (not [not [operand]]).Agrees registry options operand := by
  refine Decides.agree ((decides_not test.not).congr fun value => ?_) (test.decides options)
  rw [(decides_not test).accepts_iff, not_not, (test.decides options).accepts_iff]

private theorem forall_mem_negations (tests : ∀ operand ∈ operands, IsTest registry operand) :
    ∀ negation ∈ operands.map (fun operand => not [operand]), IsTest registry negation :=
  List.forall_mem_map.mpr fun operand member => (tests operand member).not

theorem not_and_agrees (some : operands ≠ [])
    (tests : ∀ operand ∈ operands, IsTest registry operand) :
    (not [and operands]).Agrees registry options
      (or (operands.map fun operand => not [operand])) := by
  refine Decides.agree (decides_not (IsTest.and some tests))
    ((decides_or (by simpa using some) (forall_mem_negations tests)).congr fun value => ?_)
  rw [(decides_and some tests).accepts_iff]
  push Not
  simp only [List.mem_map, exists_exists_and_eq_and]
  exact exists_congr fun operand => and_congr_right fun member =>
    (decides_not (tests operand member)).accepts_iff value

theorem not_or_agrees (some : operands ≠ [])
    (tests : ∀ operand ∈ operands, IsTest registry operand) :
    (not [or operands]).Agrees registry options
      (and (operands.map fun operand => not [operand])) := by
  refine Decides.agree (decides_not (IsTest.or some tests))
    ((decides_and (by simpa using some) (forall_mem_negations tests)).congr fun value => ?_)
  rw [(decides_or some tests).accepts_iff, List.forall_mem_map]
  push Not
  exact forall₂_congr fun operand member =>
    (decides_not (tests operand member)).accepts_iff value

theorem perm_agrees {operands' : List (Pattern α)} (some : operands ≠ [])
    (tests : ∀ operand ∈ operands, IsTest registry operand) (perm : operands.Perm operands') :
    (and operands).Agrees registry options (and operands') ∧
      (or operands).Agrees registry options (or operands') := by
  have some' : operands' ≠ [] := fun empty => some (List.perm_nil.mp (empty ▸ perm))
  have tests' : ∀ operand ∈ operands', IsTest registry operand := fun operand member =>
    tests operand (perm.mem_iff.mpr member)
  constructor
  · refine Decides.agree (decides_and some tests) ((decides_and some' tests').congr fun value => ?_)
    simp only [perm.mem_iff]
  · refine Decides.agree (decides_or some tests) ((decides_or some' tests').congr fun value => ?_)
    simp only [perm.mem_iff]

/-- Conjunction, disjunction and negation are the boolean operations on patterns that bind nothing
and ask nothing. The composites compile if the operands do, and match the values that they should;
so two negations cancel each other, De Morgan's laws hold and operands may change places. -/
theorem boolean_composites (some : operands ≠ []) (silent : ∀ operand ∈ operands, operand.Silent)
    (compile : ∀ operand ∈ operands, ∃ matcher,
      Matcher.compile operand registry options = .ok matcher) :
    ((and operands).Decides registry options fun value =>
        ∀ operand ∈ operands, operand.Accepts registry options value) ∧
      ((or operands).Decides registry options fun value =>
        ∃ operand ∈ operands, operand.Accepts registry options value) ∧
      (∀ operand ∈ operands,
        ((not [operand]).Decides registry options fun value =>
          ¬operand.Accepts registry options value) ∧
        (not [not [operand]]).Agrees registry options operand) ∧
      (not [and operands]).Agrees registry options
        (or (operands.map fun operand => not [operand])) ∧
      (not [or operands]).Agrees registry options
        (and (operands.map fun operand => not [operand])) ∧
      ∀ operands', operands.Perm operands' →
        (and operands).Agrees registry options (and operands') ∧
          (or operands).Agrees registry options (or operands') := by
  have tests : ∀ operand ∈ operands, IsTest registry operand := fun operand member =>
    (isTest_iff options).mpr ⟨silent operand member, compile operand member⟩
  exact ⟨decides_and some tests, decides_or some tests,
    fun operand member =>
      ⟨decides_not (tests operand member), not_not_agrees (tests operand member)⟩,
    not_and_agrees some tests, not_or_agrees some tests,
    fun _ perm => perm_agrees some tests perm⟩

theorem boolean_composites_repetition : ∃ operands : List (Pattern Nat),
    operands = [.list [.sequence [.kind .int, .wildcard], .repetition 1 none, .literal .nil],
      .deconstruct (.record "Pair") [.wildcard, .or [.kind .string, .kind .symbol]]] ∧
    ((or operands).Decides .standard {} fun value =>
      ∃ operand ∈ operands, operand.Accepts .standard {} value) ∧
    (not [and operands]).Agrees .standard {} (or (operands.map fun operand => not [operand])) := by
  refine ⟨_, rfl, ?_⟩
  rcases @boolean_composites Nat _ .standard {}
    [.list [.sequence [.kind .int, .wildcard], .repetition 1 none, .literal .nil],
      .deconstruct (.record "Pair") [.wildcard, .or [.kind .string, .kind .symbol]]]
    (List.cons_ne_nil _ _)
    (List.forall_mem_cons.mpr ⟨⟨rfl, rfl⟩, List.forall_mem_singleton.mpr ⟨rfl, rfl⟩⟩)
    (List.forall_mem_cons.mpr ⟨⟨_, rfl⟩, List.forall_mem_singleton.mpr ⟨_, rfl⟩⟩) with
    ⟨-, or, -, not_and, -⟩
  exact ⟨or, not_and⟩

end

end Pattern

end Destructure
