import Destructure.Proofs.Pattern.Placement

/-!
Patterns that differ in nothing but the greed of their repetitions. Their tables differ only in the
order that a repetition has received, which validation never looks at, so the same mistakes are
found in them.
-/

namespace Destructure

variable {α : Type}

namespace Pattern

mutual
def withoutGreed : Pattern α → Pattern α
  | repetition minimum _ => repetition minimum none
  | deconstruct shape items => deconstruct shape (allWithoutGreed items)
  | keyed shape entries => keyed shape (entriesWithoutGreed entries)
  | sequence items => sequence (allWithoutGreed items)
  | and operands => and (allWithoutGreed operands)
  | or operands => or (allWithoutGreed operands)
  | not operands => not (allWithoutGreed operands)
  | literal value => literal value
  | compared value accepts => compared value accepts
  | kind category => kind category
  | bind name => bind name
  | wildcard => wildcard
  | condition accepts => condition accepts
termination_by structural pattern => pattern

def allWithoutGreed : List (Pattern α) → List (Pattern α)
  | [] => []
  | pattern :: patterns => withoutGreed pattern :: allWithoutGreed patterns
termination_by structural patterns => patterns

def entriesWithoutGreed : List (Value α × Pattern α) → List (Value α × Pattern α)
  | [] => []
  | (key, pattern) :: entries => (key, withoutGreed pattern) :: entriesWithoutGreed entries
termination_by structural entries => entries
end

@[simp] theorem allWithoutGreed_eq (patterns : List (Pattern α)) :
    allWithoutGreed patterns = patterns.map withoutGreed := by
  induction patterns with
  | nil => rfl
  | cons pattern patterns induction => rw [allWithoutGreed, induction, List.map_cons]

@[simp] theorem entriesWithoutGreed_eq (entries : List (Value α × Pattern α)) :
    entriesWithoutGreed entries = entries.map fun entry => (entry.1, entry.2.withoutGreed) := by
  induction entries with
  | nil => rfl
  | cons entry entries induction => rw [entriesWithoutGreed, induction, List.map_cons]

@[simp] theorem parts_withoutGreed (pattern : Pattern α) :
    pattern.withoutGreed.parts = pattern.parts.map withoutGreed := by
  cases pattern <;> simp [withoutGreed, parts, Function.comp_def]

@[simp] theorem isSequence_withoutGreed (pattern : Pattern α) :
    pattern.withoutGreed.isSequence = pattern.isSequence := by
  cases pattern <;> rfl

theorem repetitionLeads_withoutGreed (items : List (Pattern α)) :
    repetitionLeads (items.map withoutGreed) = repetitionLeads items := by
  rcases items with _ | ⟨item, items⟩
  · rfl
  · cases item <;> rfl

theorem preorder_withoutGreed : Compositional (α := α)
    (fun pattern => pattern.withoutGreed.preorder = pattern.preorder.map withoutGreed)
    (fun patterns => (patterns.map withoutGreed).flatMap preorder =
      (patterns.flatMap preorder).map withoutGreed) where
  whole pattern ofParts := by
    rw [preorder_eq, preorder_eq, parts_withoutGreed, ofParts, List.map_cons]
  nil := rfl
  cons item items ofItem ofItems := by
    rw [List.map_cons, List.flatMap_cons, List.flatMap_cons, List.map_append, ofItem, ofItems]

@[simp] theorem boundNames_withoutGreed (pattern : Pattern α) :
    pattern.withoutGreed.boundNames = pattern.boundNames := by
  rw [boundNames, preorder_withoutGreed.item, List.filterMap_map, boundNames]
  congr 1
  funext node
  cases node <;> rfl

end Pattern

/-! ## Nodes and tables -/

def NodeKind.withoutGreed : NodeKind α → NodeKind α
  | repetition minimum _ => repetition minimum .greedy
  | kind => kind

theorem Pattern.withoutGreed_nodeKind (greed greed' : Greed) (pattern : Pattern α) :
    (pattern.withoutGreed.nodeKind greed').withoutGreed =
      (pattern.nodeKind greed).withoutGreed := by
  cases pattern <;>
    simp [Pattern.withoutGreed, Pattern.nodeKind, NodeKind.withoutGreed, Function.comp_def]

def Node.withoutGreed (node : Node α) : Node α := { node with kind := node.kind.withoutGreed }

namespace Tree

open Outline (number numberAll)

def withoutGreed (tree : Tree α) : Tree α := ⟨tree.nodes.map Node.withoutGreed⟩

theorem leadingId?_eq (outlines : List (Outline α)) :
    leadingId? outlines = (outlines.map Outline.id).head? := by
  cases outlines <;> rfl

/-- Greed leaves no trace in a table but in the kinds of repetitions. -/
theorem link_withoutGreed (greed greed' : Greed) : Pattern.Compositional (α := α)
    (fun pattern => ∀ first,
      (number greed' pattern.withoutGreed first).2 = (number greed pattern first).2 ∧
        ∀ parent previous next,
          (link parent previous next (number greed' pattern.withoutGreed first).1).map
              Node.withoutGreed =
            (link parent previous next (number greed pattern first).1).map Node.withoutGreed)
    (fun patterns => ∀ first,
      (numberAll greed' (patterns.map Pattern.withoutGreed) first).2 =
          (numberAll greed patterns first).2 ∧
        (numberAll greed' (patterns.map Pattern.withoutGreed) first).1.map Outline.id =
          (numberAll greed patterns first).1.map Outline.id ∧
        ∀ parent ordered previous,
          (linkRow parent ordered previous
              (numberAll greed' (patterns.map Pattern.withoutGreed) first).1).map
              Node.withoutGreed =
            (linkRow parent ordered previous (numberAll greed patterns first).1).map
              Node.withoutGreed) where
  whole pattern ofParts first := by
    rcases ofParts (first + 1) with ⟨next, ids, row⟩
    have ordered : (pattern.withoutGreed.nodeKind greed').isOrdered =
        (pattern.nodeKind greed).isOrdered := by
      cases pattern <;> rfl
    rw [Outline.number_eq, Outline.number_eq, Pattern.parts_withoutGreed]
    refine ⟨next, fun parent previous next => ?_⟩
    rw [link, link, List.map_cons, List.map_cons, row, ordered, Node.withoutGreed,
      Node.withoutGreed, ids, Pattern.withoutGreed_nodeKind greed]
  nil first := ⟨rfl, rfl, fun _ _ _ => rfl⟩
  cons item items ofItem ofItems first := by
    rcases ofItem first with ⟨next, here⟩
    rcases ofItems (number greed item first).2 with ⟨last, ids, row⟩
    rw [List.map_cons, Outline.numberAll_cons, Outline.numberAll_cons, next]
    refine ⟨last, ?_, fun parent ordered previous => ?_⟩
    · rw [List.map_cons, List.map_cons, ids, Outline.id_number, Outline.id_number]
    · simp only [linkRow, List.map_append, leadingId?_eq, ids, here, row, Outline.id_number]

theorem withoutGreed_ofPattern (greed greed' : Greed) (pattern : Pattern α) :
    (ofOutline (Outline.ofPattern greed' pattern.withoutGreed)).withoutGreed =
      (ofOutline (Outline.ofPattern greed pattern)).withoutGreed := by
  have rows := ((link_withoutGreed greed greed').item pattern 0).2 none none none
  simp only [withoutGreed, ofOutline, List.map_toArray, Outline.ofPattern, rows]

/-! ## Looking around -/

section

variable (tree : Tree α)

theorem node?_withoutGreed (id : Nat) :
    tree.withoutGreed.node? id = (tree.node? id).map Node.withoutGreed := by
  simp [withoutGreed, node?]

@[simp] theorem kind?_withoutGreed (id : Nat) :
    tree.withoutGreed.kind? id = (tree.kind? id).map NodeKind.withoutGreed := by
  rw [kind?, kind?, node?_withoutGreed]
  cases tree.node? id <;> rfl

@[simp] theorem size_withoutGreed : tree.withoutGreed.size = tree.size := by
  simp [withoutGreed, size]

@[simp] theorem children_withoutGreed (id : Nat) :
    tree.withoutGreed.children id = tree.children id := by
  rw [children, children, node?_withoutGreed]
  cases tree.node? id <;> rfl

@[simp] theorem parent?_withoutGreed (id : Nat) :
    tree.withoutGreed.parent? id = tree.parent? id := by
  rw [parent?, parent?, node?_withoutGreed]
  cases tree.node? id <;> rfl

@[simp] theorem next?_withoutGreed (id : Nat) : tree.withoutGreed.next? id = tree.next? id := by
  rw [next?, next?, node?_withoutGreed]
  cases tree.node? id <;> rfl

@[simp] theorem previous?_withoutGreed (id : Nat) :
    tree.withoutGreed.previous? id = tree.previous? id := by
  rw [previous?, previous?, node?_withoutGreed]
  cases tree.node? id <;> rfl

/-- A property that greed has no part in is seen in both tables. -/
theorem isKind_withoutGreed {property : NodeKind α → Bool}
    (blind : ∀ kind, property (NodeKind.withoutGreed kind) = property kind) :
    tree.withoutGreed.isKind property = tree.isKind property := by
  funext id
  rw [isKind, isKind, kind?_withoutGreed]
  cases tree.kind? id with
  | none => rfl
  | some kind => exact blind kind

@[simp] theorem ancestors_withoutGreed (id : Nat) :
    tree.withoutGreed.ancestors id = tree.ancestors id := by
  have within : ∀ bound id,
      tree.withoutGreed.ancestorsWithin bound id = tree.ancestorsWithin bound id := by
    intro bound
    induction bound with
    | zero => exact fun _ => rfl
    | succ bound induction =>
        intro id
        rw [ancestorsWithin, ancestorsWithin, parent?_withoutGreed]
        cases tree.parent? id with
        | none => rfl
        | some parent => exact congrArg (parent :: ·) (induction parent)
  exact within id id

@[simp] theorem binders_withoutGreed (id : Nat) :
    tree.withoutGreed.binders id = tree.binders id := by
  have within : ∀ bound id,
      tree.withoutGreed.bindersWithin bound id = tree.bindersWithin bound id := by
    intro bound
    induction bound with
    | zero => exact fun _ => rfl
    | succ bound induction =>
        intro id
        rw [bindersWithin, bindersWithin, kind?_withoutGreed, children_withoutGreed,
          funext induction]
        rcases tree.kind? id with _ | kind
        · rfl
        · cases kind <;> rfl
  rw [binders, binders, within, size_withoutGreed]

@[simp] theorem path_withoutGreed (id : Nat) : tree.withoutGreed.path id = tree.path id := by
  have within : ∀ bound id, tree.withoutGreed.climb bound id = tree.climb bound id := by
    intro bound
    induction bound with
    | zero => exact fun _ => rfl
    | succ bound induction =>
        intro id
        rw [climb, climb, parent?_withoutGreed]
        cases tree.parent? id with
        | none => rfl
        | some parent => simp only [place, children_withoutGreed, induction]
  rw [path, path, within]

/-! ## Validation -/

@[simp] theorem amongItems_withoutGreed (id : Nat) :
    tree.withoutGreed.amongItems id = tree.amongItems id := by
  have blind : ∀ kind : NodeKind α, kind.withoutGreed.holdsItems = kind.holdsItems := by
    intro kind
    cases kind <;> rfl
  rw [amongItems, amongItems, isKind_withoutGreed tree blind, parent?_withoutGreed]

@[simp] theorem atTail_withoutGreed : tree.withoutGreed.atTail = tree.atTail := by
  have blind : ∀ kind : NodeKind α, kind.withoutGreed.isCondition = kind.isCondition := by
    intro kind
    cases kind <;> rfl
  funext id
  rw [atTail, atTail, isKind_withoutGreed tree blind, next?_withoutGreed]

@[simp] theorem repetitionMistake?_withoutGreed (id : Nat) :
    tree.withoutGreed.repetitionMistake? id = tree.repetitionMistake? id := by
  have blind : ∀ kind : NodeKind α, kind.withoutGreed.isRepetition = kind.isRepetition := by
    intro kind
    cases kind <;> rfl
  simp only [repetitionMistake?, amongItems_withoutGreed, previous?_withoutGreed,
    isKind_withoutGreed tree blind]

@[simp] theorem conditionMistake?_withoutGreed (id : Nat) :
    tree.withoutGreed.conditionMistake? id = tree.conditionMistake? id := by
  have blind : ∀ kind : NodeKind α, kind.withoutGreed.isAlternative = kind.isAlternative := by
    intro kind
    cases kind <;> rfl
  simp only [conditionMistake?, amongItems_withoutGreed, ancestors_withoutGreed,
    atTail_withoutGreed, isKind_withoutGreed tree blind]

theorem mistakeAt?_withoutGreed [BEq α] (id : Nat) :
    tree.withoutGreed.mistakeAt? id = tree.mistakeAt? id := by
  rw [mistakeAt?, mistakeAt?, kind?_withoutGreed]
  rcases tree.kind? id with _ | kind
  · rfl
  · cases kind <;> simp [NodeKind.withoutGreed]

theorem firstMistake?_withoutGreed [BEq α] (options : Options) (seen : List String)
    (ids : List Nat) :
    tree.withoutGreed.firstMistake? options seen ids = tree.firstMistake? options seen ids := by
  induction ids generalizing seen with
  | nil => rfl
  | cons id ids induction =>
      have name : tree.withoutGreed.nameMistake? options seen id =
          tree.nameMistake? options seen id := by
        rw [nameMistake?, nameMistake?, kind?_withoutGreed]
        rcases tree.kind? id with _ | kind
        · rfl
        · cases kind <;> rfl
      have after : tree.withoutGreed.seenAfter seen id = tree.seenAfter seen id := by
        rw [seenAfter, seenAfter, kind?_withoutGreed]
        rcases tree.kind? id with _ | kind
        · rfl
        · cases kind <;> rfl
      rw [firstMistake?, firstMistake?, mistakeAt?_withoutGreed, name, after, induction]

theorem malformed?_withoutGreed [BEq α] (options : Options) :
    tree.withoutGreed.malformed? options = tree.malformed? options := by
  rw [malformed?, malformed?, ids, ids, size_withoutGreed, firstMistake?_withoutGreed]
  simp only [path_withoutGreed]

end

theorem firstMistake?_eq_of_repeatedNames [BEq α] (tree : Tree α) {options options' : Options}
    (policy : options.repeatedNames = options'.repeatedNames) (seen : List String)
    (ids : List Nat) :
    tree.firstMistake? options seen ids = tree.firstMistake? options' seen ids := by
  induction ids generalizing seen with
  | nil => rfl
  | cons id ids induction =>
      have name : tree.nameMistake? options seen id = tree.nameMistake? options' seen id := by
        rw [nameMistake?, nameMistake?, policy]
      rw [firstMistake?, firstMistake?, name, induction]

end Tree

/-- Validation finds the same mistake in patterns that differ in nothing but their greed. -/
theorem Pattern.malformed?_eq_of_withoutGreed [BEq α] {first second : Pattern α}
    (same : first.withoutGreed = second.withoutGreed) {options options' : Options}
    (policy : options.repeatedNames = options'.repeatedNames) :
    (Tree.ofOutline (Outline.ofPattern options.defaultGreed first)).malformed? options =
      (Tree.ofOutline (Outline.ofPattern options'.defaultGreed second)).malformed? options' := by
  rw [← Tree.malformed?_withoutGreed,
    ← Tree.withoutGreed_ofPattern options.defaultGreed .greedy first, same,
    Tree.withoutGreed_ofPattern options'.defaultGreed .greedy second,
    Tree.malformed?_withoutGreed, Tree.malformed?, Tree.malformed?,
    Tree.firstMistake?_eq_of_repeatedNames _ policy]

end Destructure
