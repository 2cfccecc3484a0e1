import Destructure.Proofs.Pattern.Rows

/-!
Patterns and their outlines node by node. An outline has the nodes of its pattern in preorder, and
their numbers are consecutive.
-/

namespace Destructure

variable {α : Type}

def NodeKind.boundName? : NodeKind α → Option String
  | bind name => some name
  | _ => none

namespace Pattern

def nodeKind (defaultGreed : Greed) : Pattern α → NodeKind α
  | literal value => .test (.equal value)
  | compared value accepts => .test (.compared value accepts)
  | kind category => .test (.kind category)
  | bind name => .bind name
  | wildcard => .wildcard
  | deconstruct shape _ => .deconstruct shape
  | keyed shape entries => .keyed shape (entries.map Prod.fst)
  | repetition minimum greed => .repetition minimum (greed.getD defaultGreed)
  | sequence _ => .sequence
  | and _ => .and
  | or _ => .or
  | not _ => .not
  | condition accepts => .condition accepts

mutual
def preorder : Pattern α → List (Pattern α)
  | deconstruct shape items => deconstruct shape items :: preorderAll items
  | sequence items => sequence items :: preorderAll items
  | and operands => and operands :: preorderAll operands
  | or operands => or operands :: preorderAll operands
  | not operands => not operands :: preorderAll operands
  | keyed shape entries => keyed shape entries :: preorderEntries entries
  | literal value => [literal value]
  | compared value accepts => [compared value accepts]
  | kind category => [kind category]
  | bind name => [bind name]
  | wildcard => [wildcard]
  | repetition minimum greed => [repetition minimum greed]
  | condition accepts => [condition accepts]
termination_by structural pattern => pattern

def preorderAll : List (Pattern α) → List (Pattern α)
  | [] => []
  | pattern :: patterns => preorder pattern ++ preorderAll patterns
termination_by structural patterns => patterns

def preorderEntries : List (Value α × Pattern α) → List (Pattern α)
  | [] => []
  | (_, pattern) :: entries => preorder pattern ++ preorderEntries entries
termination_by structural entries => entries
end

theorem preorderAll_eq (patterns : List (Pattern α)) :
    preorderAll patterns = patterns.flatMap preorder := by
  induction patterns with
  | nil => rfl
  | cons pattern patterns induction => simp [preorderAll, induction]

theorem preorderEntries_eq (entries : List (Value α × Pattern α)) :
    preorderEntries entries = (entries.map Prod.snd).flatMap preorder := by
  induction entries with
  | nil => rfl
  | cons entry entries induction => simp [preorderEntries, induction]

theorem preorder_eq (pattern : Pattern α) :
    pattern.preorder = pattern :: pattern.parts.flatMap preorder := by
  cases pattern <;> simp [preorder, parts, preorderAll_eq, preorderEntries_eq]

def boundName? : Pattern α → Option String
  | bind name => some name
  | _ => none

theorem boundName?_nodeKind (defaultGreed : Greed) (pattern : Pattern α) :
    (pattern.nodeKind defaultGreed).boundName? = pattern.boundName? := by
  cases pattern <;> rfl

def boundNames (pattern : Pattern α) : List String := pattern.preorder.filterMap boundName?

theorem filterMap_flatMap_preorder (patterns : List (Pattern α)) :
    (patterns.flatMap preorder).filterMap boundName? = patterns.flatMap boundNames := by
  rw [List.filterMap_flatMap]
  rfl

theorem boundNames_eq (pattern : Pattern α) :
    pattern.boundNames = pattern.boundName?.toList ++ pattern.parts.flatMap boundNames := by
  rw [boundNames, preorder_eq, List.filterMap_cons, filterMap_flatMap_preorder]
  cases pattern.boundName? <;> rfl

end Pattern

namespace Outline

theorem numberEntries_eq (defaultGreed : Greed) (entries : List (Value α × Pattern α))
    (first : Nat) :
    numberEntries defaultGreed entries first =
      numberAll defaultGreed (entries.map Prod.snd) first := by
  induction entries generalizing first with
  | nil => rfl
  | cons entry entries induction => simp [numberEntries, numberAll, induction]

/-- The root comes first, and the outlines of the parts follow. -/
theorem number_eq (defaultGreed : Greed) (pattern : Pattern α) (first : Nat) :
    number defaultGreed pattern first =
      (node first (pattern.nodeKind defaultGreed)
          (numberAll defaultGreed pattern.parts (first + 1)).1,
        (numberAll defaultGreed pattern.parts (first + 1)).2) := by
  cases pattern <;>
    simp [number, numberAll, numberEntries_eq, Pattern.nodeKind, Pattern.parts]

theorem numberAll_cons (defaultGreed : Greed) (pattern : Pattern α) (patterns : List (Pattern α))
    (first : Nat) :
    numberAll defaultGreed (pattern :: patterns) first =
      ((number defaultGreed pattern first).1 ::
          (numberAll defaultGreed patterns (number defaultGreed pattern first).2).1,
        (numberAll defaultGreed patterns (number defaultGreed pattern first).2).2) := rfl

theorem numberAll_repeated (defaultGreed : Greed) (unit : Pattern α) (minimum : Nat)
    (greed : Option Greed) (patterns : List (Pattern α)) (first : Nat) :
    (numberAll defaultGreed (unit :: .repetition minimum greed :: patterns) first).1 =
      (number defaultGreed unit first).1 ::
        node (number defaultGreed unit first).2
          (.repetition minimum (greed.getD defaultGreed)) [] ::
        (numberAll defaultGreed patterns ((number defaultGreed unit first).2 + 1)).1 := rfl

@[simp] theorem id_number (defaultGreed : Greed) (pattern : Pattern α) (first : Nat) :
    (number defaultGreed pattern first).1.id = first := by
  rw [number_eq]
  rfl

@[simp] theorem kind_number (defaultGreed : Greed) (pattern : Pattern α) (first : Nat) :
    (number defaultGreed pattern first).1.kind = pattern.nodeKind defaultGreed := by
  rw [number_eq]
  rfl

theorem preorderAll_eq (outlines : List (Outline α)) :
    preorderAll outlines = outlines.flatMap preorder := by
  induction outlines with
  | nil => rfl
  | cons outline outlines induction => simp [preorderAll, induction]

theorem preorder_node (id : Nat) (kind : NodeKind α) (children : List (Outline α)) :
    preorder (node id kind children) = node id kind children :: children.flatMap preorder := by
  rw [preorder, preorderAll_eq]

theorem mem_preorder (outline : Outline α) : outline ∈ outline.preorder := by
  rcases outline with ⟨id, kind, children⟩
  rw [preorder_node]
  exact List.mem_cons_self

/-- The numbers of nodes run from one number up to, but not including, another. -/
structure Spans (nodes : List (Outline α)) (first next : Nat) : Prop where
  ids : nodes.map id = List.range' first (next - first)
  le : first ≤ next

namespace Spans

variable {nodes others : List (Outline α)} {first middle next : Nat}

theorem nil (first : Nat) : Spans ([] : List (Outline α)) first first := ⟨by simp, Nat.le_refl _⟩

theorem cons {outline : Outline α} (spans : Spans nodes (outline.id + 1) next) :
    Spans (outline :: nodes) outline.id next := by
  have le := spans.le
  refine ⟨?_, by omega⟩
  rw [List.map_cons, spans.ids, show next - outline.id = next - (outline.id + 1) + 1 by omega,
    List.range'_succ]

theorem append (spans : Spans nodes first middle) (spans' : Spans others middle next) :
    Spans (nodes ++ others) first next := by
  have le := spans.le
  have le' := spans'.le
  refine ⟨?_, by omega⟩
  have joined : List.range' first (middle - first) ++
      List.range' (first + (middle - first)) (next - middle) =
        List.range' first ((middle - first) + (next - middle)) := List.range'_append_1
  rw [show first + (middle - first) = middle by omega,
    show middle - first + (next - middle) = next - first by omega] at joined
  rw [List.map_append, spans.ids, spans'.ids, joined]

theorem nodup (spans : Spans nodes first next) : (nodes.map id).Nodup := by
  rw [spans.ids]
  exact List.nodup_range'

end Spans

/-- The numbers of an outline run from that of its root to that behind its last node. -/
theorem spans_numbers (defaultGreed : Greed) : Pattern.Compositional (α := α)
    (fun pattern => ∀ first, Spans (number defaultGreed pattern first).1.preorder first
      (number defaultGreed pattern first).2)
    (fun patterns => ∀ first, Spans ((numberAll defaultGreed patterns first).1.flatMap preorder)
      first (numberAll defaultGreed patterns first).2) where
  whole pattern ofParts first := by
    rw [number_eq, preorder_node]
    exact .cons (ofParts (first + 1))
  nil first := .nil first
  cons item items ofItem ofItems first := by
    rw [numberAll_cons, List.flatMap_cons]
    exact (ofItem first).append (ofItems _)

theorem kinds_numbers (defaultGreed : Greed) : Pattern.Compositional (α := α)
    (fun pattern => ∀ first, (number defaultGreed pattern first).1.preorder.map kind =
      pattern.preorder.map (Pattern.nodeKind defaultGreed))
    (fun patterns => ∀ first,
      ((numberAll defaultGreed patterns first).1.flatMap preorder).map kind =
        (patterns.flatMap Pattern.preorder).map (Pattern.nodeKind defaultGreed)) where
  whole pattern ofParts first := by
    rw [number_eq, preorder_node, Pattern.preorder_eq, List.map_cons, List.map_cons,
      ofParts (first + 1)]
    rfl
  nil first := rfl
  cons item items ofItem ofItems first := by
    rw [numberAll_cons, List.flatMap_cons, List.flatMap_cons, List.map_append, List.map_append,
      ofItem first, ofItems]

/-- The numbers of the nodes of a pattern are the places in which they start. -/
theorem ids_ofPattern (defaultGreed : Greed) (pattern : Pattern α) :
    (ofPattern defaultGreed pattern).preorder.map id =
      List.range (ofPattern defaultGreed pattern).preorder.length := by
  have spans := (spans_numbers defaultGreed).item pattern 0
  have length := congrArg List.length spans.ids
  rw [List.length_map, List.length_range'] at length
  rw [ofPattern, spans.ids, length, List.range_eq_range']

/-! ## Variables -/

def place? (outline : Outline α) : Option (String × Nat) :=
  outline.kind.boundName?.map fun name => (name, outline.id)

def places (outline : Outline α) : List (String × Nat) := outline.preorder.filterMap place?

theorem places_node (id : Nat) (kind : NodeKind α) (children : List (Outline α)) :
    places (node id kind children) =
      (place? (node id kind children)).toList ++ children.flatMap places := by
  rw [places, preorder_node, List.filterMap_cons, List.filterMap_flatMap]
  cases place? (node id kind children) <;> rfl

theorem sublist_ids_places (nodes : List (Outline α)) :
    ((nodes.filterMap place?).map Prod.snd).Sublist (nodes.map id) := by
  induction nodes with
  | nil => exact .refl _
  | cons outline outlines induction =>
      rcases outline with ⟨id, kind, children⟩
      cases kind with
      | bind name => exact induction.cons_cons _
      | _ => exact induction.cons _

theorem nodup_ids_places {nodes : List (Outline α)} (nodup : (nodes.map id).Nodup) :
    ((nodes.filterMap place?).map Prod.snd).Nodup :=
  (sublist_ids_places nodes).nodup nodup

theorem names_of_kinds {defaultGreed : Greed} {nodes : List (Outline α)}
    {patterns : List (Pattern α)}
    (kinds : nodes.map kind = patterns.map (Pattern.nodeKind defaultGreed)) :
    (nodes.filterMap place?).map Prod.fst = patterns.filterMap Pattern.boundName? := by
  have ofNodes : (nodes.filterMap place?).map Prod.fst =
      (nodes.map kind).filterMap NodeKind.boundName? := by
    rw [List.map_filterMap, List.filterMap_map]
    congr 1
    funext outline
    simp [place?, Function.comp_def]
  have ofPatterns : (patterns.map (Pattern.nodeKind defaultGreed)).filterMap NodeKind.boundName? =
      patterns.filterMap Pattern.boundName? := by
    rw [List.filterMap_map]
    congr 1
    funext pattern
    exact Pattern.boundName?_nodeKind defaultGreed pattern
  rw [ofNodes, kinds, ofPatterns]

theorem names_places_number (defaultGreed : Greed) (pattern : Pattern α) (first : Nat) :
    (number defaultGreed pattern first).1.places.map Prod.fst = pattern.boundNames :=
  names_of_kinds ((kinds_numbers defaultGreed).item pattern first)

theorem places_number_eq_nil (defaultGreed : Greed) {pattern : Pattern α}
    (unbound : pattern.boundNames = []) (first : Nat) :
    (number defaultGreed pattern first).1.places = [] :=
  List.map_eq_nil_iff.mp ((names_places_number defaultGreed pattern first).trans unbound)

theorem bindersOfRow_cons (ordered : Bool) (repetitions : List Nat) (outline : Outline α)
    (outlines : List (Outline α)) :
    bindersOfRow ordered repetitions (outline :: outlines) =
      binders (repetitions ++ if ordered then (leadingRepetition? outlines).toList else [])
          outline ++
        bindersOfRow ordered repetitions outlines := rfl

theorem binders_node (repetitions : List Nat) (id : Nat) (kind : NodeKind α)
    (children : List (Outline α)) :
    binders repetitions (node id kind children) =
      (place? (node id kind children)).toList.map
          (fun place => ⟨place.2, place.1, repetitions⟩) ++
        bindersOfRow kind.isOrdered repetitions children := by
  cases kind <;> rfl

/-- The binders of an outline are its places, with the repetitions around them. -/
theorem places_of_binders : Compositional (α := α)
    (fun outline => ∀ repetitions,
      (binders repetitions outline).map (fun binder => (binder.name, binder.id)) =
        outline.places)
    (fun outlines => ∀ ordered repetitions,
      (bindersOfRow ordered repetitions outlines).map (fun binder => (binder.name, binder.id)) =
        outlines.flatMap places) where
  node id kind children ofChildren repetitions := by
    rw [binders_node, places_node, List.map_append, ofChildren]
    cases place? (node id kind children) <;> rfl
  nil ordered repetitions := rfl
  cons item items ofItem ofItems ordered repetitions := by
    rw [bindersOfRow_cons, List.map_append, ofItem, ofItems, List.flatMap_cons]

end Outline

end Destructure
