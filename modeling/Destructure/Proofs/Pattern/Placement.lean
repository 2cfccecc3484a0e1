import Destructure.Pattern.Validation
import Destructure.Proofs.Pattern.Numbering

/-!
What a pattern is like in which validation finds no mistake. Validation looks around in the table
of linked nodes; here what it finds there is carried over to the pattern itself. Alternatives bind
nothing and hold no conditions, entries take one value each, and in a row nothing but conditions
comes after an item that holds a condition.
-/

namespace Destructure

variable {α : Type}

namespace Pattern

def isAlternative : Pattern α → Bool
  | or _ | not _ => true
  | _ => false

def holdsItems : Pattern α → Bool
  | deconstruct _ _ | sequence _ => true
  | _ => false

def isOrdered : Pattern α → Bool
  | deconstruct _ _ | keyed _ _ | sequence _ => true
  | _ => false

@[simp] theorem isOrdered_nodeKind (defaultGreed : Greed) (pattern : Pattern α) :
    (pattern.nodeKind defaultGreed).isOrdered = pattern.isOrdered := by
  cases pattern <;> rfl

@[simp] theorem holdsItems_nodeKind (defaultGreed : Greed) (pattern : Pattern α) :
    (pattern.nodeKind defaultGreed).holdsItems = pattern.holdsItems := by
  cases pattern <;> rfl

@[simp] theorem isAlternative_nodeKind (defaultGreed : Greed) (pattern : Pattern α) :
    (pattern.nodeKind defaultGreed).isAlternative = pattern.isAlternative := by
  cases pattern <;> rfl

@[simp] theorem isCondition_nodeKind (defaultGreed : Greed) (pattern : Pattern α) :
    (pattern.nodeKind defaultGreed).isCondition = pattern.isCondition := by
  cases pattern <;> rfl

@[simp] theorem isRepetition_nodeKind (defaultGreed : Greed) (pattern : Pattern α) :
    (pattern.nodeKind defaultGreed).isRepetition = pattern.isRepetition := by
  cases pattern <;> rfl

@[simp] theorem isSequence_nodeKind (defaultGreed : Greed) (pattern : Pattern α) :
    (pattern.nodeKind defaultGreed).isSequence = pattern.isSequence := by
  cases pattern <;> rfl

def holdsCondition (pattern : Pattern α) : Bool := pattern.preorder.any isCondition

theorem holdsCondition_eq (pattern : Pattern α) :
    pattern.holdsCondition = (pattern.isCondition || pattern.parts.any holdsCondition) := by
  rw [holdsCondition, preorder_eq, List.any_cons, List.any_flatMap]
  rfl

theorem holdsCondition_of_isCondition {pattern : Pattern α} (isCondition : pattern.isCondition) :
    pattern.holdsCondition := by
  rw [holdsCondition_eq, isCondition, Bool.true_or]

theorem isCondition_eq_false {pattern : Pattern α}
    (unconditional : pattern.holdsCondition = false) : pattern.isCondition = false := by
  rw [holdsCondition_eq, Bool.or_eq_false_iff] at unconditional
  exact unconditional.1

/-- In a row, only conditions follow an item that holds a condition. -/
def ConditionsLast : List (Pattern α) → Prop
  | [] => True
  | item :: items =>
    (item.holdsCondition → ∀ next ∈ items.head?, next.isCondition) ∧ ConditionsLast items

def UnitsUnconditional : List (Pattern α) → Prop
  | [] => True
  | item :: items =>
    (repetitionLeads items → item.holdsCondition = false) ∧ UnitsUnconditional items

theorem ConditionsLast.unitsUnconditional {items : List (Pattern α)} (last : ConditionsLast items) :
    UnitsUnconditional items := by
  induction items with
  | nil => trivial
  | cons item items induction =>
      refine ⟨?_, induction last.2⟩
      intro leads
      apply Bool.eq_false_iff.mpr
      intro holds
      cases items with
      | nil => cases leads
      | cons next items =>
          have isCondition := last.1 holds next rfl
          cases next with
          | repetition minimum greed => cases isCondition
          | _ => cases leads

theorem unitsUnconditional_of_takesValue {items : List (Pattern α)}
    (alone : ∀ item ∈ items, item.takesValue) : UnitsUnconditional items := by
  induction items with
  | nil => trivial
  | cons item items induction =>
      refine ⟨?_, induction fun other member => alone other (List.mem_cons_of_mem _ member)⟩
      intro leads
      cases items with
      | nil => cases leads
      | cons next items =>
          have takes := alone next (List.mem_cons_of_mem _ List.mem_cons_self)
          cases next with
          | repetition minimum greed => cases takes
          | _ => cases leads

structure WellPlaced (pattern : Pattern α) : Prop where
  /-- Alternatives bind nothing. -/
  unbound : pattern.isAlternative → pattern.boundNames = []
  /-- Alternatives hold no conditions. -/
  unconditional : pattern.isAlternative → pattern.holdsCondition = false
  /-- Entries and operands stand by themselves. -/
  alone : pattern.holdsItems = false → ∀ part ∈ pattern.parts, part.takesValue
  /-- Conditions stand at the end of each row. -/
  conditionsLast : pattern.isOrdered → ConditionsLast pattern.parts

theorem WellPlaced.unitsUnconditional {pattern : Pattern α} (placed : WellPlaced pattern) :
    UnitsUnconditional pattern.parts := by
  cases holds : pattern.holdsItems with
  | false => exact unitsUnconditional_of_takesValue (placed.alone holds)
  | true =>
      apply (placed.conditionsLast _).unitsUnconditional
      cases pattern with
      | deconstruct shape items => rfl
      | sequence items => rfl
      | _ => cases holds

def Orderly (pattern : Pattern α) : Prop := ∀ node ∈ pattern.preorder, WellPlaced node

theorem Orderly.wellPlaced {pattern : Pattern α} (orderly : Orderly pattern) :
    WellPlaced pattern := orderly pattern (by rw [preorder_eq]; exact List.mem_cons_self)

theorem Orderly.parts {pattern : Pattern α} (orderly : Orderly pattern) {part : Pattern α}
    (member : part ∈ pattern.parts) : Orderly part := by
  intro node inside
  apply orderly
  rw [preorder_eq]
  exact List.mem_cons_of_mem _ (List.mem_flatMap.mpr ⟨part, member, inside⟩)

end Pattern

namespace Tree

open Outline (number numberAll)

def Lists (tree : Tree α) (first : Nat) (nodes : List (Node α)) : Prop :=
  ∀ offset < nodes.length, tree.node? (first + offset) = nodes[offset]?

theorem lists_ofOutline (outline : Outline α) :
    (ofOutline outline).Lists 0 (link none none none outline) := by
  intro offset _
  simp [ofOutline, node?]

namespace Lists

variable {tree : Tree α} {first : Nat} {node : Node α} {nodes others : List (Node α)}

theorem head (lists : tree.Lists first (node :: nodes)) : tree.node? first = some node := by
  simpa using lists 0 (by simp)

theorem tail (lists : tree.Lists first (node :: nodes)) : tree.Lists (first + 1) nodes := by
  intro offset below
  have listed := lists (offset + 1) (by simpa using below)
  rwa [List.getElem?_cons_succ, show first + (offset + 1) = first + 1 + offset by omega] at listed

theorem left (lists : tree.Lists first (nodes ++ others)) : tree.Lists first nodes := by
  intro offset below
  rw [lists offset (by simp; omega), List.getElem?_append_left below]

theorem right (lists : tree.Lists first (nodes ++ others)) :
    tree.Lists (first + nodes.length) others := by
  intro offset below
  rw [Nat.add_assoc, lists (nodes.length + offset) (by simp; omega),
    List.getElem?_append_right (by omega), Nat.add_sub_cancel_left]

theorem length_le (lists : tree.Lists first nodes) : nodes.length ≤ tree.size - first := by
  rcases Nat.eq_zero_or_pos nodes.length with empty | some
  · omega
  · have listed := lists (nodes.length - 1) (by omega)
    rw [List.getElem?_eq_getElem (by omega)] at listed
    rcases Array.getElem?_eq_some_iff.mp listed with ⟨inside, -⟩
    rw [size]
    omega

end Lists

theorem length_link : Outline.Compositional (α := α)
    (fun outline => ∀ parent previous next,
      (link parent previous next outline).length = outline.preorder.length)
    (fun outlines => ∀ parent ordered previous,
      (linkRow parent ordered previous outlines).length =
        (outlines.flatMap Outline.preorder).length) where
  node id kind children ofChildren parent previous next := by
    rw [link, List.length_cons, ofChildren, Outline.preorder_node, List.length_cons]
  nil parent ordered previous := rfl
  cons item items ofItem ofItems parent ordered previous := by
    rw [linkRow, List.length_append, ofItem, ofItems, List.flatMap_cons, List.length_append]

section Sitting

variable {tree : Tree α} {defaultGreed : Greed} {pattern : Pattern α} {first : Nat}

def Seats (tree : Tree α) (defaultGreed : Greed) (parent previous next : Option Nat)
    (pattern : Pattern α) (first : Nat) : Prop :=
  tree.Lists first (link parent previous next (number defaultGreed pattern first).1)

def SeatsRow (tree : Tree α) (defaultGreed : Greed) (parent : Nat) (ordered : Bool)
    (previous : Option Nat) (patterns : List (Pattern α)) (first : Nat) : Prop :=
  tree.Lists first (linkRow parent ordered previous (numberAll defaultGreed patterns first).1)

variable {parent previous next : Option Nat}

theorem Seats.node?_eq (seats : tree.Seats defaultGreed parent previous next pattern first) :
    tree.node? first = some ⟨pattern.nodeKind defaultGreed, parent,
      (numberAll defaultGreed pattern.parts (first + 1)).1.map Outline.id, next, previous⟩ := by
  rw [Seats, Outline.number_eq, link] at seats
  exact seats.head

theorem Seats.length_le (seats : tree.Seats defaultGreed parent previous next pattern first) :
    (number defaultGreed pattern first).1.preorder.length ≤ tree.size - first := by
  rw [← length_link.item _ parent previous next]
  exact Lists.length_le seats

theorem Seats.parts (seats : tree.Seats defaultGreed parent previous next pattern first) :
    tree.SeatsRow defaultGreed first (pattern.nodeKind defaultGreed).isOrdered none pattern.parts
      (first + 1) := by
  rw [Seats, Outline.number_eq, link] at seats
  exact seats.tail

variable {above : Nat} {ordered : Bool} {patterns : List (Pattern α)}

theorem SeatsRow.head
    (seats : tree.SeatsRow defaultGreed above ordered previous (pattern :: patterns) first) :
    tree.Seats defaultGreed (some above) previous
      (if ordered then leadingId?
        (numberAll defaultGreed patterns (number defaultGreed pattern first).2).1 else none)
      pattern first := by
  rw [SeatsRow, Outline.numberAll_cons, linkRow] at seats
  exact seats.left

theorem SeatsRow.tail
    (seats : tree.SeatsRow defaultGreed above ordered previous (pattern :: patterns) first) :
    tree.SeatsRow defaultGreed above ordered (if ordered then some first else none) patterns
      (number defaultGreed pattern first).2 := by
  rw [SeatsRow, Outline.numberAll_cons, linkRow] at seats
  have spans := (Outline.spans_numbers defaultGreed).item pattern first
  have length := congrArg List.length spans.ids
  have others := seats.right
  rw [length_link.item] at others
  rw [List.length_map, List.length_range'] at length
  have le := spans.le
  rw [length, show first + ((number defaultGreed pattern first).2 - first) =
    (number defaultGreed pattern first).2 by omega, Outline.id_number] at others
  exact others

end Sitting

/-! ## Variables below a node -/

theorem children_eq {tree : Tree α} {id : Nat} {node : Node α}
    (present : tree.node? id = some node) :
    tree.children id = node.children := by
  rw [children, present]

theorem kind?_eq {tree : Tree α} {id : Nat} {node : Node α} (present : tree.node? id = some node) :
    tree.kind? id = some node.kind := by
  rw [kind?, present]
  rfl

theorem parent?_eq {tree : Tree α} {id : Nat} {node : Node α}
    (present : tree.node? id = some node) :
    tree.parent? id = node.parent := by
  rw [parent?, present]
  rfl

theorem next?_eq {tree : Tree α} {id : Nat} {node : Node α} (present : tree.node? id = some node) :
    tree.next? id = node.next := by
  rw [next?, present]
  rfl

theorem isKind_eq {tree : Tree α} {id : Nat} {node : Node α} (present : tree.node? id = some node)
    (property : NodeKind α → Bool) : tree.isKind property id = property node.kind := by
  rw [isKind, kind?_eq present]
  rfl

theorem bindersWithin_eq (tree : Tree α) (defaultGreed : Greed) : Pattern.Compositional (α := α)
    (fun pattern => ∀ first parent previous next bound,
      tree.Seats defaultGreed parent previous next pattern first →
      (number defaultGreed pattern first).1.preorder.length ≤ bound →
      (tree.bindersWithin bound first).map Prod.swap = (number defaultGreed pattern first).1.places)
    (fun patterns => ∀ first above ordered previous bound,
      tree.SeatsRow defaultGreed above ordered previous patterns first →
      ((numberAll defaultGreed patterns first).1.flatMap Outline.preorder).length ≤ bound →
      (((numberAll defaultGreed patterns first).1.map Outline.id).flatMap
          (tree.bindersWithin bound)).map Prod.swap =
        (numberAll defaultGreed patterns first).1.flatMap Outline.places) where
  whole pattern ofParts first parent previous next bound seats enough := by
    rw [Outline.number_eq, Outline.preorder_node, List.length_cons] at enough
    obtain ⟨bound, rfl⟩ : ∃ smaller, bound = smaller + 1 := ⟨bound - 1, by omega⟩
    rw [bindersWithin, kind?_eq seats.node?_eq, children_eq seats.node?_eq,
      Outline.number_eq, Outline.places_node]
    cases pattern with
    | bind name => rfl
    | _ => exact ofParts (first + 1) first _ none bound seats.parts (by omega)
  nil first above ordered previous bound seats enough := rfl
  cons item items ofItem ofItems first above ordered previous bound seats enough := by
    rw [Outline.numberAll_cons, List.flatMap_cons, List.length_append] at enough
    rw [Outline.numberAll_cons, List.map_cons, List.flatMap_cons, List.flatMap_cons,
      List.map_append, Outline.id_number, ofItem first _ _ _ bound seats.head (by omega),
      ofItems _ _ _ _ bound seats.tail (by omega)]

/-! ## The way up -/

def Descends (tree : Tree α) : Prop := ∀ id parent, tree.parent? id = some parent → parent < id

theorem parent_lt_of_seats (tree : Tree α) (defaultGreed : Greed) : Pattern.Compositional (α := α)
    (fun pattern => ∀ first parent previous next,
      tree.Seats defaultGreed parent previous next pattern first →
      (∀ above ∈ parent, above < first) →
      ∀ node ∈ (number defaultGreed pattern first).1.preorder,
        ∀ above ∈ tree.parent? node.id, above < node.id)
    (fun patterns => ∀ first above ordered previous,
      tree.SeatsRow defaultGreed above ordered previous patterns first → above < first →
      ∀ node ∈ (numberAll defaultGreed patterns first).1.flatMap Outline.preorder,
        ∀ above ∈ tree.parent? node.id, above < node.id) where
  whole pattern ofParts first parent previous next seats before node member above isParent := by
    rw [Outline.number_eq, Outline.preorder_node] at member
    rcases List.mem_cons.mp member with rfl | inside
    · rw [Outline.id, parent?_eq seats.node?_eq] at isParent
      exact before above isParent
    · exact ofParts (first + 1) first _ none seats.parts (Nat.lt_succ_self first) node inside above
        isParent
  nil first above ordered previous seats before node member := nomatch member
  cons item items ofItem ofItems first above ordered previous seats before node member := by
    rw [Outline.numberAll_cons, List.flatMap_cons] at member
    have le := ((Outline.spans_numbers defaultGreed).item item first).le
    rcases List.mem_append.mp member with here | later
    · apply ofItem first _ _ _ seats.head _ node here
      intro other equal
      cases equal
      exact before
    · exact ofItems _ above _ _ seats.tail (by omega) node later

theorem ancestorsWithin_zero {tree : Tree α} (descends : tree.Descends) (bound : Nat) :
    tree.ancestorsWithin bound 0 = [] := by
  cases bound with
  | zero => rfl
  | succ bound =>
      rw [ancestorsWithin]
      cases isParent : tree.parent? 0 with
      | none => rfl
      | some parent => exact absurd (descends 0 parent isParent) (Nat.not_lt_zero _)

theorem ancestorsWithin_eq {tree : Tree α} (descends : tree.Descends) {bound bound' id : Nat}
    (enough : id ≤ bound) (enough' : id ≤ bound') :
    tree.ancestorsWithin bound id = tree.ancestorsWithin bound' id := by
  induction bound generalizing id bound' with
  | zero =>
      obtain rfl : id = 0 := by omega
      rw [ancestorsWithin_zero descends, ancestorsWithin_zero descends]
  | succ bound induction =>
      cases bound' with
      | zero =>
          obtain rfl : id = 0 := by omega
          rw [ancestorsWithin_zero descends, ancestorsWithin_zero descends]
      | succ bound' =>
          rw [ancestorsWithin, ancestorsWithin]
          cases isParent : tree.parent? id with
          | none => rfl
          | some parent =>
              have lt := descends id parent isParent
              exact congrArg (parent :: ·) (induction (by omega) (by omega))

theorem ancestors_eq {tree : Tree α} (descends : tree.Descends) {id parent : Nat}
    (isParent : tree.parent? id = some parent) :
    tree.ancestors id = parent :: tree.ancestors parent := by
  have lt := descends id parent isParent
  obtain ⟨bound, rfl⟩ : ∃ bound, id = bound + 1 := ⟨id - 1, by omega⟩
  rw [ancestors, ancestorsWithin, isParent]
  exact congrArg (parent :: ·) (ancestorsWithin_eq descends (by omega) (Nat.le_refl parent))

def lineage (tree : Tree α) (id : Nat) : List Nat := id :: tree.ancestors id

/-- Every pattern inside a pattern is listed as well, and the way up from it leads through the
root. -/
theorem exists_seat {tree : Tree α} (descends : tree.Descends) (defaultGreed : Greed) :
    Pattern.Compositional (α := α)
      (fun pattern => ∀ first parent previous next,
        tree.Seats defaultGreed parent previous next pattern first →
        ∀ node ∈ pattern.preorder, ∃ place parent previous next,
          tree.Seats defaultGreed parent previous next node place ∧
            tree.lineage first <:+ tree.lineage place)
      (fun patterns => ∀ first above ordered previous,
        tree.SeatsRow defaultGreed above ordered previous patterns first →
        ∀ node ∈ patterns.flatMap Pattern.preorder, ∃ place parent previous next,
          tree.Seats defaultGreed parent previous next node place ∧
            tree.lineage above <:+ tree.lineage place) where
  whole pattern ofParts first parent previous next seats node member := by
    rw [Pattern.preorder_eq] at member
    rcases List.mem_cons.mp member with rfl | inside
    · exact ⟨first, parent, previous, next, seats, List.suffix_refl _⟩
    · exact ofParts (first + 1) first _ none seats.parts node inside
  nil first above ordered previous seats node member := nomatch member
  cons item items ofItem ofItems first above ordered previous seats node member := by
    rw [List.flatMap_cons] at member
    rcases List.mem_append.mp member with here | later
    · obtain ⟨place, parent, previous', next, seated, way⟩ :=
        ofItem first _ _ _ seats.head node here
      have isParent : tree.parent? first = some above := parent?_eq seats.head.node?_eq
      have step : tree.lineage above <:+ tree.lineage first := by
        rw [lineage, lineage, ancestors_eq descends isParent]
        exact List.suffix_cons _ _
      exact ⟨place, parent, previous', next, seated, step.trans way⟩
    · exact ofItems _ above _ _ seats.tail node later

/-! ## Soundness -/

theorem mistakeAt?_of_firstMistake? [BEq α] {tree : Tree α} {options : Options} {seen : List String}
    {ids : List Nat} (sound : tree.firstMistake? options seen ids = none) :
    ∀ id ∈ ids, tree.mistakeAt? id = none := by
  induction ids generalizing seen with
  | nil =>
      intro part member
      cases member
  | cons first others induction =>
      rw [firstMistake?] at sound
      cases here : tree.mistakeAt? first with
      | some mistake => simp [here] at sound
      | none =>
          cases name : tree.nameMistake? options seen first with
          | some mistake => simp [here, name] at sound
          | none =>
              simp only [here, name] at sound
              intro id member
              rcases List.mem_cons.mp member with rfl | later
              · exact here
              · exact induction sound id later

theorem mistakeAt?_eq_none [BEq α] {tree : Tree α} {options : Options}
    (sound : tree.malformed? options = none) (id : Nat) : tree.mistakeAt? id = none := by
  by_cases inside : id < tree.size
  · rw [malformed?, Option.map_eq_none_iff] at sound
    exact mistakeAt?_of_firstMistake? sound id (List.mem_range.mpr inside)
  · have absent : tree.kind? id = none := by
      have outside : tree.nodes.size ≤ id := Nat.le_of_not_lt inside
      simp [kind?, node?, outside]
    rw [mistakeAt?, absent]

section Sound

variable [BEq α] {tree : Tree α} {defaultGreed : Greed} {pattern : Pattern α} {first : Nat}
variable {parent previous next : Option Nat}

structure ConditionPlaced (tree : Tree α) (id : Nat) : Prop where
  amongItems : tree.amongItems id
  noAlternative : ∀ above ∈ tree.ancestors id, tree.isKind NodeKind.isAlternative above = false
  atTail : ∀ above ∈ tree.lineage id, tree.atTail above

theorem conditionPlaced (sound : ∀ id, tree.mistakeAt? id = none) {id : Nat}
    {accepts : Bindings α → Bool} (isCondition : tree.kind? id = some (.condition accepts)) :
    tree.ConditionPlaced id := by
  have correct := sound id
  rw [mistakeAt?, isCondition] at correct
  simp only [Option.map_eq_none_iff, conditionMistake?, ite_eq_left_iff, reduceCtorEq, imp_false,
    Decidable.not_not, Bool.and_eq_true, List.all_eq_true, Bool.not_eq_true',
    List.any_eq_false] at correct
  rcases correct with ⟨⟨among, outside⟩, tail⟩
  exact ⟨among, fun above member => by simpa using outside above member, tail⟩

/-- A pattern that holds a condition stands where nothing but conditions follows, and no
alternative is above the condition. -/
theorem exists_conditionPlaced (descends : tree.Descends)
    (sound : ∀ id, tree.mistakeAt? id = none)
    (seats : tree.Seats defaultGreed parent previous next pattern first)
    (holds : pattern.holdsCondition) :
    ∃ place accepts, tree.kind? place = some (.condition accepts) ∧ tree.ConditionPlaced place ∧
      first ∈ tree.lineage place := by
  rcases List.any_eq_true.mp holds with ⟨node, member, isCondition⟩
  obtain ⟨place, _, _, _, seated, way⟩ :=
    (exists_seat descends defaultGreed).item pattern first _ _ _ seats node member
  cases node with
  | condition accepts =>
      have kind := kind?_eq seated.node?_eq
      exact ⟨place, accepts, kind, conditionPlaced sound kind, way.subset List.mem_cons_self⟩
  | _ => cases isCondition

theorem holdsCondition_of_isAlternative (descends : tree.Descends)
    (sound : ∀ id, tree.mistakeAt? id = none)
    (seats : tree.Seats defaultGreed parent previous next pattern first)
    (alternative : pattern.isAlternative) : pattern.holdsCondition = false := by
  apply Bool.eq_false_iff.mpr
  intro holds
  rcases exists_conditionPlaced descends sound seats holds with
    ⟨place, accepts, kind, placed, onWay⟩
  have here : tree.kind? first = some (pattern.nodeKind defaultGreed) := kind?_eq seats.node?_eq
  rcases List.mem_cons.mp onWay with rfl | above
  · rw [kind] at here
    cases pattern <;> simp_all [Pattern.nodeKind, Pattern.isAlternative]
  · have outside := placed.noAlternative first above
    rw [isKind_eq seats.node?_eq] at outside
    cases pattern <;> simp_all [Pattern.nodeKind, Pattern.isAlternative, NodeKind.isAlternative]

theorem isCondition_of_next (descends : tree.Descends) (sound : ∀ id, tree.mistakeAt? id = none)
    {behind : Nat} (seats : tree.Seats defaultGreed parent previous (some behind) pattern first)
    (holds : pattern.holdsCondition) : tree.isKind NodeKind.isCondition behind := by
  rcases exists_conditionPlaced descends sound seats holds with
    ⟨place, accepts, kind, placed, onWay⟩
  have tail := placed.atTail first onWay
  rwa [atTail, next?_eq seats.node?_eq] at tail

theorem conditionsLast_of_seatsRow (descends : tree.Descends)
    (sound : ∀ id, tree.mistakeAt? id = none) {above : Nat} {patterns : List (Pattern α)}
    (seats : tree.SeatsRow defaultGreed above true previous patterns first) :
    Pattern.ConditionsLast patterns := by
  induction patterns generalizing first previous with
  | nil => trivial
  | cons pattern patterns induction =>
      refine ⟨?_, induction seats.tail⟩
      intro holds follower follows
      cases patterns with
      | nil => cases follows
      | cons other others =>
          obtain rfl : other = follower := by simpa using follows
          have behind := isCondition_of_next descends sound seats.head holds
          rw [Outline.id_number, isKind_eq seats.tail.head.node?_eq] at behind
          cases other <;> simp_all [Pattern.nodeKind, NodeKind.isCondition, Pattern.isCondition]

theorem unbound_of_isAlternative (sound : ∀ id, tree.mistakeAt? id = none)
    (seats : tree.Seats defaultGreed parent previous next pattern first)
    (alternative : pattern.isAlternative) : pattern.boundNames = [] := by
  have collected : (tree.binders first).map Prod.swap = _ :=
    (bindersWithin_eq tree defaultGreed).item pattern first _ _ _ _ seats seats.length_le
  rw [← Outline.names_places_number defaultGreed pattern first, ← collected]
  suffices none : tree.binders first = [] by rw [none]; rfl
  have correct := sound first
  rw [mistakeAt?, kind?_eq seats.node?_eq] at correct
  cases pattern with
  | or operands =>
      simp only [Pattern.nodeKind] at correct
      split at correct
      · cases correct
      · simpa using correct
  | not operands =>
      simp only [Pattern.nodeKind] at correct
      split at correct
      · cases correct
      · split at correct
        · cases correct
        · simpa using correct
  | _ => cases alternative

theorem takesValue_of_seats (sound : ∀ id, tree.mistakeAt? id = none) {above : Nat}
    (seats : tree.Seats defaultGreed (some above) previous next pattern first)
    (alone : tree.isKind NodeKind.holdsItems above = false) : pattern.takesValue := by
  have correct := sound first
  have among : tree.amongItems first = false := by
    rw [amongItems, parent?_eq seats.node?_eq]
    exact alone
  rw [mistakeAt?, kind?_eq seats.node?_eq] at correct
  cases pattern with
  | repetition minimum greed => simp [Pattern.nodeKind, repetitionMistake?, among] at correct
  | sequence items => simp [Pattern.nodeKind, among] at correct
  | condition accepts => simp [Pattern.nodeKind, conditionMistake?, among] at correct
  | _ => rfl

theorem takesValue_of_seatsRow (sound : ∀ id, tree.mistakeAt? id = none) {above : Nat}
    {ordered : Bool} {patterns : List (Pattern α)}
    (seats : tree.SeatsRow defaultGreed above ordered previous patterns first)
    (alone : tree.isKind NodeKind.holdsItems above = false) :
    ∀ part ∈ patterns, part.takesValue := by
  induction patterns generalizing first previous with
  | nil =>
      intro part member
      cases member
  | cons pattern patterns induction =>
      intro part member
      rcases List.mem_cons.mp member with rfl | later
      · exact takesValue_of_seats sound seats.head alone
      · exact induction seats.tail part later

theorem wellPlaced_of_seats (descends : tree.Descends) (sound : ∀ id, tree.mistakeAt? id = none)
    (seats : tree.Seats defaultGreed parent previous next pattern first) : pattern.WellPlaced where
  unbound := unbound_of_isAlternative sound seats
  unconditional := holdsCondition_of_isAlternative descends sound seats
  alone none := by
    apply takesValue_of_seatsRow sound seats.parts
    rw [isKind_eq seats.node?_eq, ← none]
    cases pattern <;> rfl
  conditionsLast ordered := by
    have row := seats.parts
    rw [Pattern.isOrdered_nodeKind, ordered] at row
    exact conditionsLast_of_seatsRow descends sound row

end Sound

theorem descends_ofPattern (defaultGreed : Greed) (pattern : Pattern α) :
    (ofOutline (Outline.ofPattern defaultGreed pattern)).Descends := by
  intro id parent isParent
  have before := (parent_lt_of_seats (ofOutline (Outline.ofPattern defaultGreed pattern))
    defaultGreed).item pattern 0 none none none (lists_ofOutline _) (fun _ member => nomatch member)
  have inside : id < (Outline.ofPattern defaultGreed pattern).preorder.length := by
    rw [parent?, Option.bind_eq_some_iff] at isParent
    rcases isParent with ⟨node, present, -⟩
    rcases Array.getElem?_eq_some_iff.mp present with ⟨below, -⟩
    simpa [ofOutline, length_link.item] using below
  have listed : id ∈ (Outline.ofPattern defaultGreed pattern).preorder.map Outline.id := by
    rw [Outline.ids_ofPattern]
    exact List.mem_range.mpr inside
  rcases List.mem_map.mp listed with ⟨node, member, rfl⟩
  exact before node member parent isParent

end Tree

/-- In a pattern without mistakes every node goes together with its parts. -/
theorem Pattern.orderly_of_malformed? [BEq α] {pattern : Pattern α} {options : Options}
    {defaultGreed : Greed}
    (accepted :
      (Tree.ofOutline (Outline.ofPattern defaultGreed pattern)).malformed? options = none) :
    pattern.Orderly := by
  have descends := Tree.descends_ofPattern defaultGreed pattern
  intro node member
  obtain ⟨place, _, _, _, seats, -⟩ := (Tree.exists_seat descends defaultGreed).item pattern 0
    none none none (Tree.lists_ofOutline _) node member
  exact Tree.wellPlaced_of_seats descends (Tree.mistakeAt?_eq_none accepted) seats

end Destructure
