import Mathlib.Data.List.Induction
import Destructure.Proofs.Pattern.Paths

/-!
The table of a pattern, looked at along paths. The node with the number of a path is the node to
which the path leads; its links lead to the node above it and to the nodes beside it, and its own
path in the table is that path.
-/

namespace Destructure

variable {α : Type}

namespace Pattern

def rowPrevious (ordered : Bool) (previous : Option Nat) (patterns : List (Pattern α))
    (first : Nat) : Nat → Option Nat
  | 0 => previous
  | before + 1 => if ordered then some (rowNumber patterns first before) else none

def rowNext (ordered : Bool) (patterns : List (Pattern α)) (first place : Nat) : Option Nat :=
  if ordered ∧ place + 1 < patterns.length then some (rowNumber patterns first (place + 1))
  else none

end Pattern

namespace Outline

/-- Numbering goes on behind the last node. -/
theorem next_numbers (defaultGreed : Greed) : Pattern.Compositional (α := α)
    (fun pattern => ∀ first,
      (number defaultGreed pattern first).2 = first + pattern.extent)
    (fun patterns => ∀ first,
      (numberAll defaultGreed patterns first).2 = first + Pattern.rowExtent patterns) where
  whole pattern ofParts first := by
    rw [number_eq, ofParts, Pattern.extent_eq]
    omega
  nil first := rfl
  cons item items ofItem ofItems first := by
    rw [numberAll_cons, ofItems, ofItem, Pattern.rowExtent_cons, Nat.add_assoc]

theorem next_number (defaultGreed : Greed) (pattern : Pattern α) (first : Nat) :
    (number defaultGreed pattern first).2 = first + pattern.extent :=
  (next_numbers defaultGreed).item pattern first

theorem length_number (defaultGreed : Greed) (pattern : Pattern α) (first : Nat) :
    (number defaultGreed pattern first).1.preorder.length = pattern.extent := by
  have kinds := congrArg List.length ((kinds_numbers defaultGreed).item pattern first)
  rwa [List.length_map, List.length_map] at kinds

theorem ids_numberAll (defaultGreed : Greed) (patterns : List (Pattern α)) (first : Nat) :
    (numberAll defaultGreed patterns first).1.map id =
      (List.range patterns.length).map (Pattern.rowNumber patterns first) := by
  induction patterns generalizing first with
  | nil => rfl
  | cons pattern patterns induction =>
      rw [numberAll_cons, List.map_cons, induction, id_number, next_number, List.length_cons,
        List.range_succ_eq_map, List.map_cons, List.map_map]
      congr 1
      apply List.map_congr_left
      intro place _
      exact (Pattern.rowNumber_cons_succ pattern patterns first place).symm

end Outline

namespace Tree

open Pattern (rowNumber rowPrevious rowNext)

variable {tree : Tree α} {defaultGreed : Greed} {pattern node : Pattern α}
variable {parent previous next : Option Nat} {first : Nat}

theorem leadingId?_numberAll (patterns : List (Pattern α)) (first : Nat) :
    leadingId? (Outline.numberAll defaultGreed patterns first).1 =
      if 0 < patterns.length then some first else none := by
  cases patterns with
  | nil => rfl
  | cons pattern patterns =>
      rw [Outline.numberAll_cons, leadingId?, Outline.id_number]
      rfl

theorem SeatsRow.part {above : Nat} {ordered : Bool} {patterns : List (Pattern α)}
    {part : Pattern α} {place : Nat}
    (seats : tree.SeatsRow defaultGreed above ordered previous patterns first)
    (atPlace : patterns[place]? = some part) :
    tree.Seats defaultGreed (some above) (rowPrevious ordered previous patterns first place)
      (rowNext ordered patterns first place) part (rowNumber patterns first place) := by
  induction patterns generalizing first previous place with
  | nil => cases atPlace
  | cons pattern patterns induction =>
      cases place with
      | zero =>
          obtain rfl : pattern = part := Option.some.inj atPlace
          have behind : rowNext ordered (pattern :: patterns) first 0 =
              if ordered then leadingId? (Outline.numberAll defaultGreed patterns
                (Outline.number defaultGreed pattern first).2).1 else none := by
            rw [leadingId?_numberAll, Outline.next_number]
            cases ordered <;> simp [rowNext, Pattern.rowNumber_cons_succ]
          rw [behind]
          exact seats.head
      | succ place =>
          have before : rowPrevious ordered previous (pattern :: patterns) first (place + 1) =
              rowPrevious ordered (if ordered then some first else none) patterns
                (first + pattern.extent) place := by
            cases place with
            | zero => rfl
            | succ place => simp only [rowPrevious, Pattern.rowNumber_cons_succ]
          have behind : rowNext ordered (pattern :: patterns) first (place + 1) =
              rowNext ordered patterns (first + pattern.extent) place := by
            simp only [rowNext, Pattern.rowNumber_cons_succ, List.length_cons,
              Nat.add_lt_add_iff_right]
          have there := induction seats.tail atPlace
          rw [Outline.next_number] at there
          rw [before, behind, Pattern.rowNumber_cons_succ]
          exact there

theorem Seats.part {part : Pattern α} {place : Nat}
    (seats : tree.Seats defaultGreed parent previous next pattern first)
    (atPlace : pattern.parts[place]? = some part) :
    tree.Seats defaultGreed (some first)
      (rowPrevious pattern.isOrdered none pattern.parts (first + 1) place)
      (rowNext pattern.isOrdered pattern.parts (first + 1) place) part
      (rowNumber pattern.parts (first + 1) place) := by
  have row := seats.parts
  rw [Pattern.isOrdered_nodeKind] at row
  exact row.part atPlace

/-- A table that lists a pattern lists what is inside it. -/
theorem Seats.inside {path : List Nat}
    (seats : tree.Seats defaultGreed parent previous next pattern first)
    (present : pattern.at? path = some node) :
    ∃ parent previous next,
      tree.Seats defaultGreed parent previous next node (pattern.numberAt first path) := by
  induction path generalizing pattern first parent previous next with
  | nil =>
      cases present
      exact ⟨_, _, _, seats⟩
  | cons place path induction =>
      rcases Option.bind_eq_some_iff.mp present with ⟨part, atPlace, onward⟩
      rw [Pattern.numberAt_cons atPlace]
      exact induction (seats.part atPlace) onward

theorem kind?_at {path : List Nat}
    (seats : tree.Seats defaultGreed parent previous next pattern first)
    (present : pattern.at? path = some node) :
    tree.kind? (pattern.numberAt first path) = some (node.nodeKind defaultGreed) := by
  rcases seats.inside present with ⟨_, _, _, seated⟩
  exact kind?_eq seated.node?_eq

theorem isKind_at {path : List Nat}
    (seats : tree.Seats defaultGreed parent previous next pattern first)
    (present : pattern.at? path = some node) (property : NodeKind α → Bool) :
    tree.isKind property (pattern.numberAt first path) =
      property (node.nodeKind defaultGreed) := by
  rw [isKind, kind?_at seats present]
  rfl

theorem children_at {path : List Nat}
    (seats : tree.Seats defaultGreed parent previous next pattern first)
    (present : pattern.at? path = some node) :
    tree.children (pattern.numberAt first path) =
      (List.range node.parts.length).map
        (rowNumber node.parts (pattern.numberAt first path + 1)) := by
  rcases seats.inside present with ⟨_, _, _, seated⟩
  rw [children_eq seated.node?_eq, Outline.ids_numberAll]

section Beside

variable {holder part : Pattern α} {above : List Nat} {place : Nat}

/-- A part of a node has the links that its place gives it. -/
theorem seats_concat (seats : tree.Seats defaultGreed parent previous next pattern first)
    (present : pattern.at? above = some holder) (atPlace : holder.parts[place]? = some part) :
    tree.Seats defaultGreed (some (pattern.numberAt first above))
      (rowPrevious holder.isOrdered none holder.parts (pattern.numberAt first above + 1) place)
      (rowNext holder.isOrdered holder.parts (pattern.numberAt first above + 1) place) part
      (pattern.numberAt first (above ++ [place])) := by
  rcases seats.inside present with ⟨_, _, _, seated⟩
  rw [Pattern.numberAt_concat present atPlace]
  exact seated.part atPlace

theorem parent?_at (seats : tree.Seats defaultGreed parent previous next pattern first)
    (present : pattern.at? above = some holder) (atPlace : holder.parts[place]? = some part) :
    tree.parent? (pattern.numberAt first (above ++ [place])) =
      some (pattern.numberAt first above) :=
  parent?_eq (seats_concat seats present atPlace).node?_eq

theorem previous?_at_zero (seats : tree.Seats defaultGreed parent previous next pattern first)
    (present : pattern.at? above = some holder) (atPlace : holder.parts[0]? = some part) :
    tree.previous? (pattern.numberAt first (above ++ [0])) = none := by
  rw [previous?, (seats_concat seats present atPlace).node?_eq]
  rfl

theorem previous?_at_succ (seats : tree.Seats defaultGreed parent previous next pattern first)
    (present : pattern.at? above = some holder) (ordered : holder.isOrdered)
    (atPlace : holder.parts[place]? = some part) {later : Pattern α}
    (behind : holder.parts[place + 1]? = some later) :
    tree.previous? (pattern.numberAt first (above ++ [place + 1])) =
      some (pattern.numberAt first (above ++ [place])) := by
  rw [previous?, (seats_concat seats present behind).node?_eq,
    Pattern.numberAt_concat present atPlace, ordered]
  rfl

theorem next?_at (seats : tree.Seats defaultGreed parent previous next pattern first)
    (present : pattern.at? above = some holder) (ordered : holder.isOrdered)
    (atPlace : holder.parts[place]? = some part) {later : Pattern α}
    (behind : holder.parts[place + 1]? = some later) :
    tree.next? (pattern.numberAt first (above ++ [place])) =
      some (pattern.numberAt first (above ++ [place + 1])) := by
  rcases List.getElem?_eq_some_iff.mp behind with ⟨inside, -⟩
  rw [next?_eq (seats_concat seats present atPlace).node?_eq,
    Pattern.numberAt_concat present behind]
  exact if_pos ⟨ordered, inside⟩

theorem next?_at_eq_none (seats : tree.Seats defaultGreed parent previous next pattern first)
    (present : pattern.at? above = some holder) (atPlace : holder.parts[place]? = some part)
    (alone : holder.isOrdered → holder.parts[place + 1]? = none) :
    tree.next? (pattern.numberAt first (above ++ [place])) = none := by
  rw [next?_eq (seats_concat seats present atPlace).node?_eq]
  apply if_neg
  rintro ⟨ordered, inside⟩
  exact Nat.not_le.mpr inside (List.getElem?_eq_none_iff.mp (alone ordered))

end Beside

/-! ## The way up -/

section Upwards

variable (seats : tree.Seats defaultGreed none previous next pattern 0)
include seats

/-- The nodes on the way up from a node are those to which the beginnings of its path lead. -/
theorem forall_mem_lineage (descends : tree.Descends) {path : List Nat}
    (present : pattern.at? path = some node) (property : Nat → Prop) :
    (∀ id ∈ tree.lineage (pattern.numberAt 0 path), property id) ↔
      ∀ above, above <+: path → property (pattern.numberAt 0 above) := by
  induction path using List.reverseRecOn generalizing node with
  | nil =>
      have topmost : tree.lineage (pattern.numberAt 0 []) = [pattern.numberAt 0 []] := by
        rw [lineage, Pattern.numberAt_nil, ancestors, ancestorsWithin_zero descends]
      rw [topmost]
      simp
  | append_singleton above place induction =>
      rcases Pattern.exists_holder present with ⟨holder, present', atPlace⟩
      rw [lineage, ancestors_eq descends (parent?_at seats present' atPlace),
        List.forall_mem_cons, ← lineage, induction present']
      simp only [List.prefix_concat_iff, forall_eq_or_imp]

theorem place_at {holder part : Pattern α} {above : List Nat} {place : Nat}
    (present : pattern.at? above = some holder) (atPlace : holder.parts[place]? = some part) :
    tree.place (pattern.numberAt 0 above) (pattern.numberAt 0 (above ++ [place])) = place := by
  rcases List.getElem?_eq_some_iff.mp atPlace with ⟨inside, -⟩
  have numbers : ∀ other < holder.parts.length,
      rowNumber holder.parts (pattern.numberAt 0 above + 1) other =
        pattern.numberAt 0 (above ++ [other]) := by
    intro other lt
    rw [Pattern.numberAt_concat present (List.getElem?_eq_getElem lt)]
  have found : (tree.children (pattern.numberAt 0 above)).idxOf?
      (pattern.numberAt 0 (above ++ [place])) = some place := by
    rw [children_at seats present, List.idxOf?, List.findIdx?_eq_some_iff_getElem]
    refine ⟨by simpa using inside, ?_, ?_⟩
    · simpa using numbers place inside
    · intro other before
      simp only [List.getElem_map, List.getElem_range, beq_iff_eq]
      rw [numbers other (Nat.lt_trans before inside)]
      intro equal
      have atOther : ∃ sibling, pattern.at? (above ++ [other]) = some sibling := by
        rw [Pattern.at?_concat, present, Option.bind_some,
          List.getElem?_eq_getElem (Nat.lt_trans before inside)]
        exact ⟨_, rfl⟩
      have atPlace' : pattern.at? (above ++ [place]) = some part := by
        rw [Pattern.at?_concat, present, Option.bind_some, atPlace]
      rcases atOther with ⟨sibling, present'⟩
      have same := Pattern.numberAt_injective present' atPlace' equal
      simp only [List.append_cancel_left_eq, List.cons.injEq, and_true] at same
      omega
  rw [Tree.place, found]
  rfl

theorem climb_at {path : List Nat} (present : pattern.at? path = some node) {bound : Nat}
    (enough : path.length ≤ bound) :
    tree.climb bound (pattern.numberAt 0 path) = path.reverse := by
  induction path using List.reverseRecOn generalizing node bound with
  | nil =>
      cases bound with
      | zero => rfl
      | succ bound =>
          rw [climb, Pattern.numberAt_nil, parent?_eq seats.node?_eq]
          rfl
  | append_singleton above place induction =>
      rcases Pattern.exists_holder present with ⟨holder, present', atPlace⟩
      rw [List.length_append, List.length_singleton] at enough
      cases bound with
      | zero => exact absurd enough (Nat.not_succ_le_zero _)
      | succ bound =>
          rw [climb, parent?_at seats present' atPlace, List.reverse_append]
          simp only [place_at seats present' atPlace]
          rw [induction present' (Nat.le_of_succ_le_succ enough)]
          rfl

/-- The path of a node in the table leads to the node. -/
theorem path_at {path : List Nat} (present : pattern.at? path = some node) :
    tree.path (pattern.numberAt 0 path) = path := by
  have enough : path.length ≤ pattern.numberAt 0 path := by
    have deep := Pattern.add_length_le_numberAt present 0
    rwa [Nat.zero_add] at deep
  rw [Tree.path, climb_at seats present enough, List.reverse_reverse]

end Upwards

/-! ## Variables -/

def boundName? (tree : Tree α) (id : Nat) : Option String :=
  (tree.kind? id).bind NodeKind.boundName?

theorem boundName?_at {path : List Nat}
    (seats : tree.Seats defaultGreed parent previous next pattern first)
    (present : pattern.at? path = some node) :
    tree.boundName? (pattern.numberAt first path) = node.boundName? := by
  rw [boundName?, kind?_at seats present, Option.bind_some, Pattern.boundName?_nodeKind]

/-- The variables below a node, in the order of their numbers. -/
theorem bindersWithin_numbers (tree : Tree α) (defaultGreed : Greed) :
    Pattern.Compositional (α := α)
      (fun pattern => ∀ first parent previous next bound,
        tree.Seats defaultGreed parent previous next pattern first → pattern.extent ≤ bound →
        tree.bindersWithin bound first = (List.range' first pattern.extent).filterMap
          fun id => (tree.boundName? id).map fun name => (id, name))
      (fun patterns => ∀ first above ordered previous bound,
        tree.SeatsRow defaultGreed above ordered previous patterns first →
        Pattern.rowExtent patterns ≤ bound →
        ((Outline.numberAll defaultGreed patterns first).1.map Outline.id).flatMap
            (tree.bindersWithin bound) =
          (List.range' first (Pattern.rowExtent patterns)).filterMap
            fun id => (tree.boundName? id).map fun name => (id, name)) where
  whole pattern ofParts first parent previous next bound seats enough := by
    rw [Pattern.extent_eq] at enough ⊢
    have below := ofParts (first + 1) first _ none (bound - 1) seats.parts (by omega)
    cases bound with
    | zero => omega
    | succ bound =>
        have here : tree.boundName? first = pattern.boundName? :=
          boundName?_at seats pattern.at?_nil
        rw [List.range'_succ, List.filterMap_cons, here, bindersWithin, kind?_eq seats.node?_eq,
          children_eq seats.node?_eq]
        cases pattern with
        | bind name => rfl
        | _ => exact below
  nil first above ordered previous bound seats enough := rfl
  cons item items ofItem ofItems first above ordered previous bound seats enough := by
    rw [Pattern.rowExtent_cons] at enough ⊢
    have later := ofItems _ _ _ _ bound seats.tail (by omega)
    rw [Outline.next_number] at later
    rw [Outline.numberAll_cons, List.map_cons, List.flatMap_cons, Outline.id_number,
      ofItem first _ _ _ bound seats.head (by omega), Outline.next_number, later,
      ← List.range'_append_1, List.filterMap_append]

/-- The first variable below a node is the first in preorder. -/
theorem head?_binders_at {path : List Nat} {binder : Nat × String}
    (seats : tree.Seats defaultGreed parent previous next pattern first)
    (present : pattern.at? path = some node) :
    (tree.binders (pattern.numberAt first path)).head? = some binder ↔
      ∃ below, pattern.numberAt first (path ++ below) = binder.1 ∧
        node.at? below = some (.bind binder.2) ∧
        ∀ earlier < below, ∀ name, node.at? earlier ≠ some (.bind name) := by
  rcases seats.inside present with ⟨_, _, _, seated⟩
  have enough : node.extent ≤ tree.size - pattern.numberAt first path := by
    have length := seated.length_le
    rwa [Outline.length_number] at length
  rw [binders, (bindersWithin_numbers tree defaultGreed).item node _ _ _ _ _ seated enough,
    List.head?_filterMap, Pattern.findSome?_numbers]
  constructor
  · rintro ⟨below, other, present', found, none⟩
    rw [boundName?_at seated present', Option.map_eq_some_iff] at found
    rcases found with ⟨name, bound, rfl⟩
    refine ⟨below, Pattern.numberAt_append present below, ?_, ?_⟩
    · cases other <;> cases bound
      exact present'
    · intro earlier before name atEarlier
      have free := none earlier before _ atEarlier
      rw [boundName?_at seated atEarlier] at free
      cases free
  · rintro ⟨below, numbered, present', none⟩
    refine ⟨below, _, present', ?_, ?_⟩
    · rw [boundName?_at seated present', ← Pattern.numberAt_append present, numbered]
      rfl
    · intro earlier before other atEarlier
      rw [boundName?_at seated atEarlier]
      cases other with
      | bind name => exact absurd atEarlier (none earlier before name)
      | _ => rfl

end Tree

end Destructure
