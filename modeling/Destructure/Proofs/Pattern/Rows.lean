import Destructure.Pattern.Outline

/-!
Induction over outlines and over patterns along the way in which rows are read: an item together
with the repetition that follows it, or an item by itself.
-/

namespace Destructure

variable {α : Type}

namespace Outline

theorem leadingRepetition?_eq_some {outlines : List (Outline α)} {repetition : Nat}
    (leads : leadingRepetition? outlines = some repetition) :
    ∃ minimum greed parts items,
      outlines = node repetition (.repetition minimum greed) parts :: items := by
  rcases outlines with _ | ⟨⟨id, kind, parts⟩, items⟩
  · cases leads
  · cases kind <;> simp [leadingRepetition?] at leads
    subst leads
    exact ⟨_, _, _, _, rfl⟩

mutual
/-- A property holds throughout if it passes from the children of a node to the node. -/
@[elab_as_elim]
theorem induction_on_children {motive : Outline α → Prop} :
    ∀ outline : Outline α,
      (∀ id kind children, (∀ child ∈ children, motive child) → motive (node id kind children)) →
      motive outline
  | node id kind children, step => step id kind children (forall_mem_of_step children step)
termination_by structural outline => outline

theorem forall_mem_of_step {motive : Outline α → Prop} :
    ∀ outlines : List (Outline α),
      (∀ id kind children, (∀ child ∈ children, motive child) → motive (node id kind children)) →
      ∀ item ∈ outlines, motive item
  | [], _, _, member => nomatch member
  | first :: others, step, item, member => by
      rcases List.mem_cons.mp member with equal | later
      · exact equal ▸ induction_on_children first step
      · exact forall_mem_of_step others step item later
termination_by structural outlines => outlines
end

/-- What has to be shown for a property of outlines and a property of their lists to hold
throughout, if it does not matter where repetitions stand. -/
structure Compositional (ofItem : Outline α → Prop) (ofRow : List (Outline α) → Prop) : Prop where
  node : ∀ id kind children, ofRow children → ofItem (.node id kind children)
  nil : ofRow []
  cons : ∀ item items, ofItem item → ofRow items → ofRow (item :: items)

namespace Compositional

variable {ofItem : Outline α → Prop} {ofRow : List (Outline α) → Prop}

theorem row_of_items (steps : Compositional ofItem ofRow) (outlines : List (Outline α))
    (ofItems : ∀ item ∈ outlines, ofItem item) : ofRow outlines := by
  induction outlines with
  | nil => exact steps.nil
  | cons item items induction =>
      exact steps.cons item items (ofItems item List.mem_cons_self)
        (induction fun other member => ofItems other (List.mem_cons_of_mem _ member))

theorem item (steps : Compositional ofItem ofRow) (outline : Outline α) : ofItem outline := by
  induction outline using induction_on_children with
  | _ id kind children ofChildren =>
      exact steps.node id kind children (steps.row_of_items children ofChildren)

theorem row (steps : Compositional ofItem ofRow) (outlines : List (Outline α)) : ofRow outlines :=
  steps.row_of_items outlines fun item _ => steps.item item

end Compositional

structure Inductive (ofItem : Outline α → Prop) (ofRow : List (Outline α) → Prop) : Prop where
  node : ∀ id kind children, (∀ child ∈ children, ofItem child) → ofRow children →
    ofItem (.node id kind children)
  nil : ofRow []
  repeated : ∀ unit repetition minimum greed parts items, ofItem unit → ofRow items →
    ofRow (unit :: .node repetition (.repetition minimum greed) parts :: items)
  plain : ∀ item items, leadingRepetition? items = none → ofItem item → ofRow items →
    ofRow (item :: items)

namespace Inductive

variable {ofItem : Outline α → Prop} {ofRow : List (Outline α) → Prop}

theorem row_of_items (steps : Inductive ofItem ofRow) :
    ∀ outlines : List (Outline α), (∀ item ∈ outlines, ofItem item) → ofRow outlines
  | [], _ => steps.nil
  | [item], ofItems => steps.plain item [] rfl (ofItems item List.mem_cons_self) steps.nil
  | item :: next :: items, ofItems => by
      have holds := ofItems item List.mem_cons_self
      have behind : ∀ other ∈ next :: items, ofItem other :=
        fun other member => ofItems other (List.mem_cons_of_mem _ member)
      cases leads : leadingRepetition? (next :: items) with
      | none => exact steps.plain item _ leads holds (steps.row_of_items (next :: items) behind)
      | some repetition =>
          have rest := steps.row_of_items items
            fun other member => behind other (List.mem_cons_of_mem _ member)
          rcases leadingRepetition?_eq_some leads with ⟨minimum, greed, parts, _, equal⟩
          cases equal
          exact steps.repeated item repetition minimum greed parts items holds rest

theorem item (steps : Inductive ofItem ofRow) (outline : Outline α) : ofItem outline := by
  induction outline using induction_on_children with
  | _ id kind children ofChildren =>
      exact steps.node id kind children ofChildren (steps.row_of_items children ofChildren)

theorem row (steps : Inductive ofItem ofRow) (outlines : List (Outline α)) : ofRow outlines :=
  steps.row_of_items outlines fun item _ => steps.item item

end Inductive

end Outline

namespace Pattern

def parts : Pattern α → List (Pattern α)
  | deconstruct _ items | sequence items => items
  | and operands | or operands | not operands => operands
  | keyed _ entries => entries.map Prod.snd
  | literal _ | compared _ _ | kind _ | bind _ | wildcard | repetition _ _ | condition _ => []

def isSequence : Pattern α → Bool
  | sequence _ => true
  | _ => false

def isRepetition : Pattern α → Bool
  | repetition _ _ => true
  | _ => false

def isCondition : Pattern α → Bool
  | condition _ => true
  | _ => false

def takesValue (pattern : Pattern α) : Bool :=
  !pattern.isRepetition && !pattern.isSequence && !pattern.isCondition

def repetitionLeads (items : List (Pattern α)) : Bool := items.head?.any isRepetition

theorem plain_of_takesValue {pattern : Pattern α} (takes : pattern.takesValue) :
    pattern.isRepetition = false ∧ pattern.isSequence = false ∧ pattern.isCondition = false := by
  cases pattern with
  | repetition minimum greed => cases takes
  | sequence items => cases takes
  | condition accepts => cases takes
  | _ => exact ⟨rfl, rfl, rfl⟩

theorem repetitionLeads_of_takesValue {items : List (Pattern α)}
    (alone : ∀ item ∈ items, item.takesValue) : repetitionLeads items = false := by
  cases items with
  | nil => rfl
  | cons next others => exact (plain_of_takesValue (alone next List.mem_cons_self)).1

mutual
/-- A property holds throughout if it passes from the parts of a pattern to the pattern. -/
@[elab_as_elim]
theorem induction_on_parts {motive : Pattern α → Prop} :
    ∀ pattern : Pattern α,
      (∀ pattern, (∀ part ∈ parts pattern, motive part) → motive pattern) → motive pattern
  | deconstruct _ items, step => step _ (forall_mem_of_step items step)
  | sequence items, step => step _ (forall_mem_of_step items step)
  | and operands, step => step _ (forall_mem_of_step operands step)
  | or operands, step => step _ (forall_mem_of_step operands step)
  | not operands, step => step _ (forall_mem_of_step operands step)
  | keyed _ entries, step => step _ (forall_entry_of_step entries step)
  | literal _, step | compared _ _, step | kind _, step | bind _, step | wildcard, step
  | repetition _ _, step | condition _, step => step _ fun _ member => nomatch member
termination_by structural pattern => pattern

theorem forall_mem_of_step {motive : Pattern α → Prop} :
    ∀ patterns : List (Pattern α),
      (∀ pattern, (∀ part ∈ parts pattern, motive part) → motive pattern) →
      ∀ item ∈ patterns, motive item
  | [], _, _, member => nomatch member
  | first :: others, step, item, member => by
      rcases List.mem_cons.mp member with equal | later
      · exact equal ▸ induction_on_parts first step
      · exact forall_mem_of_step others step item later
termination_by structural patterns => patterns

theorem forall_entry_of_step {motive : Pattern α → Prop} :
    ∀ entries : List (Value α × Pattern α),
      (∀ pattern, (∀ part ∈ parts pattern, motive part) → motive pattern) →
      ∀ item ∈ entries.map Prod.snd, motive item
  | [], _, _, member => nomatch member
  | (_, first) :: others, step, item, member => by
      rcases List.mem_cons.mp member with equal | later
      · exact equal ▸ induction_on_parts first step
      · exact forall_entry_of_step others step item later
termination_by structural entries => entries
end

structure Compositional (ofItem : Pattern α → Prop) (ofRow : List (Pattern α) → Prop) : Prop where
  whole : ∀ pattern, ofRow (parts pattern) → ofItem pattern
  nil : ofRow []
  cons : ∀ item items, ofItem item → ofRow items → ofRow (item :: items)

namespace Compositional

variable {ofItem : Pattern α → Prop} {ofRow : List (Pattern α) → Prop}

theorem row_of_items (steps : Compositional ofItem ofRow) (patterns : List (Pattern α))
    (ofItems : ∀ item ∈ patterns, ofItem item) : ofRow patterns := by
  induction patterns with
  | nil => exact steps.nil
  | cons item items induction =>
      exact steps.cons item items (ofItems item List.mem_cons_self)
        (induction fun other member => ofItems other (List.mem_cons_of_mem _ member))

theorem item (steps : Compositional ofItem ofRow) (pattern : Pattern α) : ofItem pattern := by
  induction pattern using induction_on_parts with
  | _ pattern ofParts => exact steps.whole pattern (steps.row_of_items _ ofParts)

end Compositional

structure Inductive (ofItem : Pattern α → Prop) (ofRow : List (Pattern α) → Prop) : Prop where
  whole : ∀ pattern, (∀ part ∈ parts pattern, ofItem part) → ofRow (parts pattern) →
    ofItem pattern
  nil : ofRow []
  repeated : ∀ unit minimum greed items, ofItem unit → ofRow items →
    ofRow (unit :: repetition minimum greed :: items)
  plain : ∀ item items, repetitionLeads items = false → ofItem item → ofRow items →
    ofRow (item :: items)

namespace Inductive

variable {ofItem : Pattern α → Prop} {ofRow : List (Pattern α) → Prop}

theorem row_of_items (steps : Inductive ofItem ofRow) :
    ∀ patterns : List (Pattern α), (∀ item ∈ patterns, ofItem item) → ofRow patterns
  | [], _ => steps.nil
  | [item], ofItems => steps.plain item [] rfl (ofItems item List.mem_cons_self) steps.nil
  | item :: next :: items, ofItems => by
      have holds := ofItems item List.mem_cons_self
      have behind : ∀ other ∈ next :: items, ofItem other :=
        fun other member => ofItems other (List.mem_cons_of_mem _ member)
      have rest := steps.row_of_items items
        fun other member => behind other (List.mem_cons_of_mem _ member)
      have whole := steps.row_of_items (next :: items) behind
      cases next with
      | repetition minimum greed => exact steps.repeated item minimum greed items holds rest
      | _ => exact steps.plain item _ rfl holds whole

theorem item (steps : Inductive ofItem ofRow) (pattern : Pattern α) : ofItem pattern := by
  induction pattern using induction_on_parts with
  | _ pattern ofParts => exact steps.whole pattern ofParts (steps.row_of_items _ ofParts)

theorem row (steps : Inductive ofItem ofRow) (patterns : List (Pattern α)) : ofRow patterns :=
  steps.row_of_items patterns fun item _ => steps.item item

end Inductive

end Pattern

end Destructure
