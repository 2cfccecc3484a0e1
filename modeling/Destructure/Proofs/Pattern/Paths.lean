import Destructure.Proofs.Pattern.Placement

/-!
Paths into a pattern. A path names the parts through which it goes down by their places. Paths in
the order of the alphabet are the nodes in preorder, and the number of a node counts the nodes
before it.
-/

namespace Destructure

variable {α : Type}

namespace Pattern

def at? (pattern : Pattern α) : List Nat → Option (Pattern α)
  | [] => some pattern
  | place :: path => pattern.parts[place]?.bind fun part => part.at? path

theorem at?_nil (pattern : Pattern α) : pattern.at? [] = some pattern := rfl

theorem at?_append (pattern : Pattern α) (above below : List Nat) :
    pattern.at? (above ++ below) = (pattern.at? above).bind fun node => node.at? below := by
  induction above generalizing pattern with
  | nil => rfl
  | cons place above induction =>
      rw [List.cons_append, at?, at?]
      cases pattern.parts[place]? with
      | none => rfl
      | some part => exact induction part

theorem at?_concat (pattern : Pattern α) (above : List Nat) (place : Nat) :
    pattern.at? (above ++ [place]) =
      (pattern.at? above).bind fun holder => holder.parts[place]? := by
  rw [at?_append]
  congr 1
  funext holder
  rw [at?]
  cases holder.parts[place]? <;> rfl

theorem at?_append_of_eq {pattern node : Pattern α} {above : List Nat}
    (present : pattern.at? above = some node) (below : List Nat) :
    pattern.at? (above ++ below) = node.at? below := by
  rw [at?_append, present, Option.bind_some]

theorem exists_holder {pattern node : Pattern α} {above : List Nat} {place : Nat}
    (present : pattern.at? (above ++ [place]) = some node) :
    ∃ holder, pattern.at? above = some holder ∧ holder.parts[place]? = some node := by
  rw [at?_concat] at present
  exact Option.bind_eq_some_iff.mp present

/-- The beginnings of a path lead to nodes as well. -/
theorem exists_of_prefix {pattern node : Pattern α} {above path : List Nat}
    (leads : above <+: path) (present : pattern.at? path = some node) :
    ∃ holder, pattern.at? above = some holder := by
  rcases leads with ⟨below, rfl⟩
  rw [at?_append] at present
  rcases Option.bind_eq_some_iff.mp present with ⟨holder, atAbove, -⟩
  exact ⟨holder, atAbove⟩

/-! ## Numbers

The root has the number with which counting starts. The parts of a node follow it one after
another, each with everything below it.
-/

def extent (pattern : Pattern α) : Nat := pattern.preorder.length

def rowExtent (patterns : List (Pattern α)) : Nat := (patterns.flatMap preorder).length

theorem rowExtent_cons (pattern : Pattern α) (patterns : List (Pattern α)) :
    rowExtent (pattern :: patterns) = pattern.extent + rowExtent patterns := by
  rw [rowExtent, List.flatMap_cons, List.length_append]
  rfl

theorem extent_eq (pattern : Pattern α) : pattern.extent = rowExtent pattern.parts + 1 := by
  rw [extent, preorder_eq, List.length_cons]
  rfl

theorem extent_pos (pattern : Pattern α) : 0 < pattern.extent := by
  rw [extent_eq]
  exact Nat.succ_pos _

def rowNumber (patterns : List (Pattern α)) (first place : Nat) : Nat :=
  first + rowExtent (patterns.take place)

@[simp] theorem rowNumber_zero (patterns : List (Pattern α)) (first : Nat) :
    rowNumber patterns first 0 = first := rfl

theorem rowNumber_cons_succ (pattern : Pattern α) (patterns : List (Pattern α))
    (first place : Nat) :
    rowNumber (pattern :: patterns) first (place + 1) =
      rowNumber patterns (first + pattern.extent) place := by
  rw [rowNumber, rowNumber, List.take_succ_cons, rowExtent_cons, Nat.add_assoc]

/-- A part and everything below it come before the part at the next place. -/
theorem rowNumber_succ {patterns : List (Pattern α)} {place : Nat} {part : Pattern α}
    (present : patterns[place]? = some part) (first : Nat) :
    rowNumber patterns first (place + 1) = rowNumber patterns first place + part.extent := by
  rw [rowNumber, rowNumber, List.take_add_one, present, rowExtent, rowExtent, List.flatMap_append,
    List.length_append, Nat.add_assoc, Option.toList_some, List.flatMap_singleton, extent]

theorem rowNumber_mono (patterns : List (Pattern α)) (first : Nat) {place place' : Nat}
    (le : place ≤ place') : rowNumber patterns first place ≤ rowNumber patterns first place' := by
  induction le with
  | refl => exact Nat.le_refl _
  | @step other le induction =>
      apply Nat.le_trans induction
      cases present : patterns[other]? with
      | none =>
          have short := List.getElem?_eq_none_iff.mp present
          apply Nat.le_of_eq
          rw [rowNumber, rowNumber, List.take_of_length_le short,
            List.take_of_length_le (Nat.le_succ_of_le short)]
      | some part =>
          rw [Nat.succ_eq_add_one, rowNumber_succ present]
          exact Nat.le_add_right _ _

theorem rowNumber_length_le (patterns : List (Pattern α)) (first place : Nat) :
    rowNumber patterns first place ≤ first + rowExtent patterns := by
  rcases Nat.le_total place patterns.length with inside | outside
  · have le := rowNumber_mono patterns first inside
    rwa [rowNumber, rowNumber, List.take_length] at le
  · apply Nat.le_of_eq
    rw [rowNumber, List.take_of_length_le outside]

theorem rowNumber_add_extent_le {patterns : List (Pattern α)} {place : Nat} {part : Pattern α}
    (present : patterns[place]? = some part) (first : Nat) :
    rowNumber patterns first place + part.extent ≤ first + rowExtent patterns := by
  rw [← rowNumber_succ present]
  exact rowNumber_length_le _ _ _

def numberAt (pattern : Pattern α) (first : Nat) : List Nat → Nat
  | [] => first
  | place :: path =>
    match pattern.parts[place]? with
    | some part => part.numberAt (rowNumber pattern.parts (first + 1) place) path
    | none => first

theorem numberAt_nil (pattern : Pattern α) (first : Nat) : pattern.numberAt first [] = first := rfl

theorem numberAt_cons {pattern part : Pattern α} {place : Nat}
    (present : pattern.parts[place]? = some part) (first : Nat) (path : List Nat) :
    pattern.numberAt first (place :: path) =
      part.numberAt (rowNumber pattern.parts (first + 1) place) path := by
  rw [numberAt, present]

theorem numberAt_append {pattern node : Pattern α} {above : List Nat} {first : Nat}
    (present : pattern.at? above = some node) (below : List Nat) :
    pattern.numberAt first (above ++ below) =
      node.numberAt (pattern.numberAt first above) below := by
  induction above generalizing pattern first with
  | nil =>
      cases present
      rfl
  | cons place above induction =>
      rcases Option.bind_eq_some_iff.mp present with ⟨part, atPlace, onward⟩
      rw [List.cons_append, numberAt_cons atPlace, numberAt_cons atPlace, induction onward]

theorem numberAt_concat {pattern holder part : Pattern α} {above : List Nat} {place first : Nat}
    (present : pattern.at? above = some holder) (atPlace : holder.parts[place]? = some part) :
    pattern.numberAt first (above ++ [place]) =
      rowNumber holder.parts (pattern.numberAt first above + 1) place := by
  rw [numberAt_append present, numberAt_cons atPlace, numberAt_nil]

theorem le_numberAt (pattern : Pattern α) (first : Nat) (path : List Nat) :
    first ≤ pattern.numberAt first path := by
  induction path generalizing pattern first with
  | nil => exact Nat.le_refl _
  | cons place path induction =>
      cases atPlace : pattern.parts[place]? with
      | none =>
          apply Nat.le_of_eq
          rw [numberAt, atPlace]
      | some part =>
          rw [numberAt_cons atPlace]
          apply Nat.le_trans _ (induction part _)
          exact Nat.le_trans (Nat.le_succ first) (Nat.le_add_right _ _)

/-- What is inside a pattern has one of its numbers. -/
theorem numberAt_add_extent_le {pattern node : Pattern α} {path : List Nat}
    (present : pattern.at? path = some node) (first : Nat) :
    pattern.numberAt first path + node.extent ≤ first + pattern.extent := by
  induction path generalizing pattern first with
  | nil =>
      cases present
      exact Nat.le_refl _
  | cons place path induction =>
      rcases Option.bind_eq_some_iff.mp present with ⟨part, atPlace, onward⟩
      rw [numberAt_cons atPlace]
      have inside := induction onward (rowNumber pattern.parts (first + 1) place)
      have within := rowNumber_add_extent_le atPlace (first + 1)
      have whole := pattern.extent_eq
      omega

theorem numberAt_lt {pattern node : Pattern α} {path : List Nat}
    (present : pattern.at? path = some node) (first : Nat) :
    pattern.numberAt first path < first + pattern.extent := by
  have within := numberAt_add_extent_le present first
  have positive := node.extent_pos
  omega

/-- A node stands behind at least as many nodes as its path has places. -/
theorem add_length_le_numberAt {pattern node : Pattern α} {path : List Nat}
    (present : pattern.at? path = some node) (first : Nat) :
    first + path.length ≤ pattern.numberAt first path := by
  induction path generalizing pattern first with
  | nil => exact Nat.le_refl _
  | cons place path induction =>
      rcases Option.bind_eq_some_iff.mp present with ⟨part, atPlace, onward⟩
      have deeper := induction onward (rowNumber pattern.parts (first + 1) place)
      have start : first + 1 ≤ rowNumber pattern.parts (first + 1) place := Nat.le_add_right _ _
      rw [numberAt_cons atPlace, List.length_cons]
      omega

/-- Paths in the order of the alphabet lead to nodes in preorder. -/
theorem numberAt_lt_numberAt {pattern node other : Pattern α} {path path' : List Nat}
    (before : path < path') (present : pattern.at? path = some node)
    (present' : pattern.at? path' = some other) (first : Nat) :
    pattern.numberAt first path < pattern.numberAt first path' := by
  induction before generalizing pattern first with
  | @nil place path' =>
      rcases Option.bind_eq_some_iff.mp present' with ⟨part, atPlace, -⟩
      rw [numberAt_nil, numberAt_cons atPlace]
      exact Nat.lt_of_lt_of_le (Nat.lt_add_right _ (Nat.lt_succ_self first)) (le_numberAt _ _ _)
  | @cons place path path' before induction =>
      rcases Option.bind_eq_some_iff.mp present with ⟨part, atPlace, onward⟩
      rcases Option.bind_eq_some_iff.mp present' with ⟨part', atPlace', onward'⟩
      obtain rfl : part = part' := Option.some.inj (atPlace.symm.trans atPlace')
      rw [numberAt_cons atPlace, numberAt_cons atPlace]
      exact induction onward onward' _
  | @rel place path place' path' lt =>
      rcases Option.bind_eq_some_iff.mp present with ⟨part, atPlace, onward⟩
      rcases Option.bind_eq_some_iff.mp present' with ⟨part', atPlace', -⟩
      rw [numberAt_cons atPlace, numberAt_cons atPlace']
      have inside := numberAt_lt onward (rowNumber pattern.parts (first + 1) place)
      have apart := rowNumber_mono pattern.parts (first + 1) (Nat.succ_le_of_lt lt)
      rw [Nat.succ_eq_add_one, rowNumber_succ atPlace] at apart
      exact Nat.lt_of_lt_of_le (Nat.lt_of_lt_of_le inside apart) (le_numberAt _ _ _)

theorem lt_iff_numberAt_lt {pattern node other : Pattern α} {path path' : List Nat}
    (present : pattern.at? path = some node) (present' : pattern.at? path' = some other)
    (first : Nat) :
    path < path' ↔ pattern.numberAt first path < pattern.numberAt first path' := by
  constructor
  · intro before
    exact numberAt_lt_numberAt before present present' first
  · intro before
    apply Decidable.byContradiction
    intro notBefore
    rcases List.le_iff_lt_or_eq.mp (List.not_lt.mp notBefore) with after | equal
    · exact Nat.lt_asymm before (numberAt_lt_numberAt after present' present first)
    · exact Nat.lt_irrefl _ (equal ▸ before)

theorem numberAt_injective {pattern node other : Pattern α} {path path' : List Nat}
    {first : Nat} (present : pattern.at? path = some node)
    (present' : pattern.at? path' = some other)
    (equal : pattern.numberAt first path = pattern.numberAt first path') : path = path' := by
  apply List.le_antisymm
  · apply List.not_lt.mp
    intro after
    exact Nat.ne_of_lt (numberAt_lt_numberAt after present' present first) equal.symm
  · apply List.not_lt.mp
    intro before
    exact Nat.ne_of_lt (numberAt_lt_numberAt before present present' first) equal

/-- Every number of a pattern belongs to a node. -/
theorem exists_path : Compositional (α := α)
    (fun pattern => ∀ first number, first ≤ number → number < first + pattern.extent →
      ∃ path node, pattern.at? path = some node ∧ pattern.numberAt first path = number)
    (fun patterns => ∀ first number, first ≤ number → number < first + rowExtent patterns →
      ∃ (place : Nat) (part : Pattern α) (path : List Nat) (node : Pattern α),
        patterns[place]? = some part ∧ part.at? path = some node ∧
          part.numberAt (rowNumber patterns first place) path = number) where
  whole pattern ofParts first number le lt := by
    rcases Nat.eq_or_lt_of_le le with equal | later
    · exact ⟨[], pattern, rfl, equal⟩
    · rw [extent_eq] at lt
      rcases ofParts (first + 1) number later (by omega) with
        ⟨place, part, path, node, atPlace, present, found⟩
      refine ⟨place :: path, node, ?_, ?_⟩
      · rw [at?, atPlace, Option.bind_some, present]
      · rw [numberAt_cons atPlace, found]
  nil first number le lt := absurd lt (Nat.not_lt.mpr le)
  cons item items ofItem ofItems first number le lt := by
    rw [rowExtent_cons] at lt
    rcases Nat.lt_or_ge number (first + item.extent) with here | later
    · rcases ofItem first number le here with ⟨path, node, present, found⟩
      exact ⟨0, item, path, node, rfl, present, found⟩
    · rcases ofItems (first + item.extent) number later (by omega) with
        ⟨place, part, path, node, atPlace, present, found⟩
      refine ⟨place + 1, part, path, node, atPlace, present, ?_⟩
      rw [rowNumber_cons_succ, found]

/-- Among the nodes with a property there is a first one. -/
theorem exists_first_path (property : List Nat → Prop) {pattern node : Pattern α}
    {path : List Nat} (present : pattern.at? path = some node)
    (holds : property path) :
    ∃ first found, pattern.at? first = some found ∧ property first ∧
      ∀ earlier < first, ∀ other, pattern.at? earlier = some other → ¬ property earlier := by
  generalize numbered : pattern.numberAt 0 path = number
  induction number using Nat.strongRecOn generalizing path node with
  | _ number induction =>
      by_cases least : ∀ earlier < path, ∀ other, pattern.at? earlier = some other →
        ¬ property earlier
      · exact ⟨path, node, present, holds, least⟩
      · simp only [Classical.not_forall, Classical.not_not] at least
        rcases least with ⟨earlier, before, other, present', holds'⟩
        have smaller := numberAt_lt_numberAt before present' present 0
        exact induction _ (numbered ▸ smaller) present' holds' rfl

/-! ## Searching in preorder -/

theorem findSome?_range'_eq_some {Result : Type} {find : Nat → Option Result} {first count : Nat}
    {result : Result} :
    (List.range' first count).findSome? find = some result ↔
      ∃ number, first ≤ number ∧ number < first + count ∧ find number = some result ∧
        ∀ earlier, first ≤ earlier → earlier < number → find earlier = none := by
  induction count generalizing first with
  | zero =>
      constructor
      · intro found
        cases found
      · rintro ⟨number, le, lt, -⟩
        omega
  | succ count induction =>
      rw [List.range'_succ, List.findSome?_cons]
      cases here : find first with
      | some found =>
          constructor
          · intro equal
            refine ⟨first, Nat.le_refl _, by omega, here.trans equal, ?_⟩
            intro earlier le lt
            omega
          · rintro ⟨number, le, lt, found', none⟩
            rcases Nat.eq_or_lt_of_le le with equal | later
            · rw [← here, equal, found']
            · rw [none first (Nat.le_refl _) later] at here
              cases here
      | none =>
          rw [induction]
          constructor
          · rintro ⟨number, le, lt, found, none⟩
            refine ⟨number, by omega, by omega, found, ?_⟩
            intro earlier le' lt'
            rcases Nat.eq_or_lt_of_le le' with equal | later
            · exact equal ▸ here
            · exact none earlier later lt'
          · rintro ⟨number, le, lt, found, none⟩
            rcases Nat.eq_or_lt_of_le le with equal | later
            · rw [← equal, here] at found
              cases found
            · exact ⟨number, later, by omega, found, fun earlier le' lt' =>
                none earlier (Nat.le_of_succ_le le') lt'⟩

/-- The first result among the numbers of a pattern is that of the first node with a result. -/
theorem findSome?_numbers {Result : Type} {find : Nat → Option Result} {pattern : Pattern α}
    {first : Nat} {result : Result} :
    (List.range' first pattern.extent).findSome? find = some result ↔
      ∃ path node, pattern.at? path = some node ∧
        find (pattern.numberAt first path) = some result ∧
        ∀ earlier < path, ∀ other, pattern.at? earlier = some other →
          find (pattern.numberAt first earlier) = none := by
  rw [findSome?_range'_eq_some]
  constructor
  · rintro ⟨number, le, lt, found, none⟩
    rcases exists_path.item pattern first number le lt with ⟨path, node, present, rfl⟩
    refine ⟨path, node, present, found, ?_⟩
    intro earlier before other present'
    exact none _ (le_numberAt _ _ _) (numberAt_lt_numberAt before present' present first)
  · rintro ⟨path, node, present, found, none⟩
    refine ⟨_, le_numberAt _ _ _, numberAt_lt present first, found, ?_⟩
    intro number le lt
    rcases exists_path.item pattern first number le
      (Nat.lt_trans lt (numberAt_lt present first)) with ⟨earlier, other, present', rfl⟩
    exact none earlier ((lt_iff_numberAt_lt present' present first).mpr lt) other present'

end Pattern

end Destructure
