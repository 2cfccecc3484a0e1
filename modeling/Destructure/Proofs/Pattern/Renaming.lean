import Destructure.Proofs.Pattern.Formation

/-!
Giving other names to what a pattern binds. Names have no part in how a pattern is put together; so
a pattern whose names are changed is as well-formed as before, unless its names have to be
different.
-/

namespace Destructure

variable {α : Type}

namespace Pattern

mutual
def renamed (change : String → String) : Pattern α → Pattern α
  | bind name => bind (change name)
  | deconstruct shape items => deconstruct shape (allRenamed change items)
  | keyed shape entries => keyed shape (entriesRenamed change entries)
  | sequence items => sequence (allRenamed change items)
  | and operands => and (allRenamed change operands)
  | or operands => or (allRenamed change operands)
  | not operands => not (allRenamed change operands)
  | literal value => literal value
  | compared value accepts => compared value accepts
  | kind category => kind category
  | wildcard => wildcard
  | repetition minimum greed => repetition minimum greed
  | condition accepts => condition accepts
termination_by structural pattern => pattern

def allRenamed (change : String → String) : List (Pattern α) → List (Pattern α)
  | [] => []
  | pattern :: patterns => renamed change pattern :: allRenamed change patterns
termination_by structural patterns => patterns

def entriesRenamed (change : String → String) :
    List (Value α × Pattern α) → List (Value α × Pattern α)
  | [] => []
  | (key, pattern) :: entries => (key, renamed change pattern) :: entriesRenamed change entries
termination_by structural entries => entries
end

variable (change : String → String)

@[simp] theorem allRenamed_eq (patterns : List (Pattern α)) :
    allRenamed change patterns = patterns.map (renamed change) := by
  induction patterns with
  | nil => rfl
  | cons pattern patterns induction => rw [allRenamed, induction, List.map_cons]

@[simp] theorem entriesRenamed_eq (entries : List (Value α × Pattern α)) :
    entriesRenamed change entries = entries.map fun entry => (entry.1, entry.2.renamed change) := by
  induction entries with
  | nil => rfl
  | cons entry entries induction => rw [entriesRenamed, induction, List.map_cons]

@[simp] theorem parts_renamed (pattern : Pattern α) :
    (pattern.renamed change).parts = pattern.parts.map (renamed change) := by
  cases pattern <;> simp [renamed, parts, Function.comp_def]

@[simp] theorem isRepetition_renamed (pattern : Pattern α) :
    (pattern.renamed change).isRepetition = pattern.isRepetition := by
  cases pattern <;> rfl

@[simp] theorem isCondition_renamed (pattern : Pattern α) :
    (pattern.renamed change).isCondition = pattern.isCondition := by
  cases pattern <;> rfl

@[simp] theorem takesValue_renamed (pattern : Pattern α) :
    (pattern.renamed change).takesValue = pattern.takesValue := by
  cases pattern <;> rfl

theorem repetitionLeads_renamed (items : List (Pattern α)) :
    repetitionLeads (items.map (renamed change)) = repetitionLeads items := by
  cases items with
  | nil => rfl
  | cons item items => exact isRepetition_renamed change item

theorem preorder_renamed : Compositional (α := α)
    (fun pattern => (pattern.renamed change).preorder = pattern.preorder.map (renamed change))
    (fun patterns => (patterns.map (renamed change)).flatMap preorder =
      (patterns.flatMap preorder).map (renamed change)) where
  whole pattern ofParts := by
    rw [preorder_eq, preorder_eq, parts_renamed, ofParts, List.map_cons]
  nil := rfl
  cons item items ofItem ofItems := by
    rw [List.map_cons, List.flatMap_cons, List.flatMap_cons, List.map_append, ofItem, ofItems]

@[simp] theorem boundNames_renamed (pattern : Pattern α) :
    (pattern.renamed change).boundNames = pattern.boundNames.map change := by
  rw [boundNames, (preorder_renamed change).item, List.filterMap_map, boundNames,
    List.map_filterMap]
  congr 1
  funext node
  cases node <;> rfl

@[simp] theorem holdsCondition_renamed (pattern : Pattern α) :
    (pattern.renamed change).holdsCondition = pattern.holdsCondition := by
  rw [holdsCondition, (preorder_renamed change).item, List.any_map, holdsCondition]
  congr 1
  funext node
  exact isCondition_renamed change node

/-! ## Well-formedness -/

theorem wellPlaced_iff (node : Pattern α) :
    node.WellPlaced ↔
      (node.isAlternative → node.boundNames = []) ∧
      (node.isAlternative → node.holdsCondition = false) ∧
      (node.holdsItems = false → ∀ part ∈ node.parts, part.takesValue) ∧
      (node.isOrdered → ConditionsLast node.parts) :=
  ⟨fun ⟨unbound, unconditional, alone, last⟩ => ⟨unbound, unconditional, alone, last⟩,
    fun ⟨unbound, unconditional, alone, last⟩ => ⟨unbound, unconditional, alone, last⟩⟩

theorem conditionsLast_renamed (items : List (Pattern α)) :
    ConditionsLast (items.map (renamed change)) ↔ ConditionsLast items := by
  rw [conditionsLast_iff, conditionsLast_iff, List.isChain_map]
  simp only [holdsCondition_renamed, isCondition_renamed]

theorem founded_renamed (items : List (Pattern α)) :
    Founded (items.map (renamed change)) ↔ Founded items := by
  have leading : (repetition 0 none : Pattern α) = (repetition 0 none).renamed change := rfl
  rw [founded_iff, founded_iff]
  conv_lhs => rw [leading, ← List.map_cons, List.isChain_map]
  simp only [isRepetition_renamed]

theorem wellPlaced_renamed (node : Pattern α) :
    (node.renamed change).WellPlaced ↔ node.WellPlaced := by
  have alternative : (node.renamed change).isAlternative = node.isAlternative := by
    cases node <;> rfl
  have items : (node.renamed change).holdsItems = node.holdsItems := by
    cases node <;> rfl
  have ordered : (node.renamed change).isOrdered = node.isOrdered := by
    cases node <;> rfl
  rw [wellPlaced_iff, wellPlaced_iff]
  simp only [alternative, items, ordered, boundNames_renamed, List.map_eq_nil_iff,
    holdsCondition_renamed, parts_renamed, List.forall_mem_map, takesValue_renamed,
    conditionsLast_renamed]

section

variable [BEq α]

theorem filled_renamed (node : Pattern α) : (node.renamed change).Filled ↔ node.Filled := by
  cases node <;> simp [Filled, renamed, Function.comp_def]

theorem wellMade_renamed (node : Pattern α) :
    (node.renamed change).WellMade ↔ node.WellMade := by
  constructor
  · rintro ⟨placed, founded, filled⟩
    rw [parts_renamed] at founded
    exact ⟨(wellPlaced_renamed change node).mp placed, (founded_renamed change _).mp founded,
      (filled_renamed change node).mp filled⟩
  · rintro ⟨placed, founded, filled⟩
    refine ⟨(wellPlaced_renamed change node).mpr placed, ?_, ?_⟩
    · rw [parts_renamed]
      exact (founded_renamed change _).mpr founded
    · exact (filled_renamed change node).mpr filled

/-- Names have no part in how the nodes of a pattern are made. -/
theorem made_renamed (pattern : Pattern α) : (pattern.renamed change).Made ↔ pattern.Made := by
  rw [Made, (preorder_renamed change).item, List.forall_mem_map]
  simp only [wellMade_renamed, Made]

end

end Pattern

end Destructure
