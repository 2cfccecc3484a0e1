import Destructure.Proofs.Matching.FirstSolution

/-!
What a match has done with its repetitions. Along with each outcome that an item offers goes the
course that leads there: for every repetition that was made, the courses of its passes. The course
of a match that a search accepts is the first one, in the order of the search, with whose outcome
the search is content.
-/

namespace Destructure

variable {α β γ : Type}

open Outline (leadingRepetition?)

/-- How repetitions were made: under the number of each of them its passes in order, and for each
pass how the repetitions inside of the unit were made in it. -/
structure Course where
  repeated : List (Nat × List Course)

namespace Course

def straight : Course := ⟨[]⟩

def append (first second : Course) : Course := ⟨first.repeated ++ second.repeated⟩

def ofPasses (repetition : Nat) (passes : List Course) : Course := ⟨[(repetition, passes)]⟩

def passes? (course : Course) (repetition : Nat) : Option (List Course) :=
  course.repeated.lookup repetition

def andThen (courses : List (Course × β)) (next : β → List (Course × γ)) : List (Course × γ) :=
  courses.flatMap fun (course, outcome) =>
    (next outcome).map fun (later, final) => (course.append later, final)

def single (item : Value α → Contents α → List (Course × Contents α)) :
    List (Value α) → Contents α → List (Course × Place α)
  | [], _ => []
  | value :: left, contents => (item value contents).map fun (course, contents) =>
    (course, ⟨contents, left⟩)

def exhausted (courses : List (Course × Place α)) : List (Course × Contents α) :=
  courses.flatMap fun (course, place) =>
    if place.left.isEmpty then [(course, place.contents)] else []

def passing (unit : List (Value α) → Contents α → List (Course × Place α)) :
    Nat → List (Value α) → Contents α → List (List Course × Place α)
  | 0, values, contents => [([], ⟨contents, values⟩)]
  | count + 1, values, contents =>
    (unit values contents).flatMap fun (course, place) =>
      (passing unit count place.left place.contents).map fun (others, final) =>
        (course :: others, final)

/-! ## Outcomes -/

theorem map_andThen (courses : List (Course × β)) (next : β → List (Course × γ)) :
    (andThen courses next).map Prod.snd =
      (courses.map Prod.snd).flatMap fun outcome => (next outcome).map Prod.snd := by
  rw [andThen, List.map_flatMap, List.flatMap_map]
  congr 1
  funext offered
  rw [List.map_map]
  rfl

theorem map_single {item : Value α → Contents α → List (Course × Contents α)}
    {turns : Value α → Contents α → Turns α (Contents α)}
    (same : ∀ value contents, Turns.outcomes (turns value contents) =
      (item value contents).map Prod.snd)
    (values : List (Value α)) (contents : Contents α) :
    Turns.outcomes (Turns.single turns values contents) =
      (single item values contents).map Prod.snd := by
  cases values with
  | nil => rfl
  | cons value left =>
      rw [Turns.single, Turns.outcomes_andThen, same, single, List.map_map, List.flatMap_map]
      exact (List.map_eq_flatMap).symm

theorem map_exhausted {courses : List (Course × Place α)} {turns : Turns α (Place α)}
    (same : Turns.outcomes turns = courses.map Prod.snd) :
    Turns.outcomes (Turns.exhausted turns) = (exhausted courses).map Prod.snd := by
  rw [Turns.exhausted, Turns.outcomes_andThen, same, exhausted, List.map_flatMap, List.flatMap_map]
  congr 1
  funext offered
  cases empty : offered.2.left.isEmpty <;> simp [empty, Turns.outcomes]

theorem map_passing {unit : List (Value α) → Contents α → List (Course × Place α)}
    {turns : List (Value α) → Contents α → Turns α (Place α)}
    (same : ∀ values contents, Turns.outcomes (turns values contents) =
      (unit values contents).map Prod.snd)
    (count : Nat) (values : List (Value α)) (contents : Contents α) :
    Turns.outcomes (Turns.passes turns count values contents) =
      (passing unit count values contents).map Prod.snd := by
  induction count generalizing values contents with
  | zero => rfl
  | succ count induction =>
      rw [Turns.passes, Turns.outcomes_andThen, same, passing, List.map_flatMap, List.flatMap_map]
      congr 1
      funext offered
      rw [induction, List.map_map]
      rfl

theorem exists_of_mem_exhausted {courses : List (Course × Place α)} {offered : Course × Contents α}
    (member : offered ∈ exhausted courses) :
    ∃ left, (offered.1, ⟨offered.2, left⟩) ∈ courses := by
  rcases List.mem_flatMap.mp member with ⟨⟨course, place⟩, among, ends⟩
  cases List.mem_singleton.mp (List.mem_ite_nil_right.mp ends).2
  exact ⟨place.left, among⟩

end Course

namespace Matcher

mutual
def rowCourses [BEq α] (matcher : Matcher α) :
    List (Outline α) → List (Value α) → Contents α → List (Course × Place α)
  | [], values, contents => [(.straight, ⟨contents, values⟩)]
  | item :: .node repetition (.repetition minimum greed) _ :: items, values, contents =>
    let unit :=
      if item.kind.isSequence then partCourses matcher item
      else Course.single (itemCourses matcher item)
    let opened := matcher.openContents repetition contents
    Course.andThen
      (((greed.counts minimum values.length).flatMap fun count =>
        Course.passing unit count values opened).map fun (passes, place) =>
          (.ofPasses repetition passes, place))
      fun place => rowCourses matcher items place.left place.contents
  | item :: items, values, contents =>
    match item.kind with
    | .condition accepts =>
      if values.isEmpty && accepts (matcher.bindingsIn contents) then
        rowCourses matcher items values contents
      else []
    | .repetition _ _ => []
    | .sequence =>
      Course.andThen (partCourses matcher item values contents)
        fun place => rowCourses matcher items place.left place.contents
    | _ =>
      Course.andThen (Course.single (itemCourses matcher item) values contents)
        fun place => rowCourses matcher items place.left place.contents
termination_by structural items => items

def partCourses [BEq α] (matcher : Matcher α) :
    Outline α → List (Value α) → Contents α → List (Course × Place α)
  | .node _ _ children, values, contents => rowCourses matcher children values contents
termination_by structural item => item

/-- The courses that an item offers for a single value. Alternatives only decide, and what is done
in them is no part of a course. -/
def itemCourses [BEq α] (matcher : Matcher α) :
    Outline α → Value α → Contents α → List (Course × Contents α)
  | .node id kind children, value, contents =>
    match kind with
    | .test test => if test.accepts value then [(.straight, contents)] else []
    | .wildcard => [(.straight, contents)]
    | .bind _ => [(.straight, contents.put id (matcher.depth id) (.scalar value))]
    | .deconstruct _ =>
      match (matcher.decomposer? id).bind fun decomposer => decomposer value with
      | none => []
      | some parts => Course.exhausted (rowCourses matcher children parts contents)
    | .keyed shape keys =>
      match shape.lookup? keys value with
      | none => []
      | some parts => Course.exhausted (rowCourses matcher children parts contents)
    | .and => allCourses matcher children value contents
    | .or =>
      if (Turns.outcomes (matcher.anyTurns children value contents)).isEmpty then []
      else [(.straight, contents)]
    | .not =>
      if (Turns.outcomes (matcher.anyTurns children value contents)).isEmpty then
        [(.straight, contents)]
      else []
    | .sequence | .repetition _ _ | .condition _ => []
termination_by structural item => item

def allCourses [BEq α] (matcher : Matcher α) :
    List (Outline α) → Value α → Contents α → List (Course × Contents α)
  | [], _, contents => [(.straight, contents)]
  | item :: items, value, contents =>
    Course.andThen (itemCourses matcher item value contents) (allCourses matcher items value)
termination_by structural items => items
end

theorem rowCourses_plain [BEq α] (matcher : Matcher α) {item : Outline α}
    {items : List (Outline α)} (leads : leadingRepetition? items = none) (values : List (Value α))
    (contents : Contents α) :
    matcher.rowCourses (item :: items) values contents =
      match item.kind with
      | .condition accepts =>
        if values.isEmpty && accepts (matcher.bindingsIn contents) then
          rowCourses matcher items values contents
        else []
      | .repetition _ _ => []
      | .sequence =>
        Course.andThen (partCourses matcher item values contents)
          fun place => rowCourses matcher items place.left place.contents
      | _ =>
        Course.andThen (Course.single (itemCourses matcher item) values contents)
          fun place => rowCourses matcher items place.left place.contents := by
  rcases items with _ | ⟨⟨id, kind, parts⟩, items⟩
  · rfl
  · cases kind with
    | repetition minimum greed => cases leads
    | _ => rfl

theorem outcomes_allTurns [BEq α] (matcher : Matcher α) {items : List (Outline α)}
    (same : ∀ item ∈ items, ∀ value contents,
      Turns.outcomes (matcher.itemTurns item value contents) =
        (matcher.itemCourses item value contents).map Prod.snd)
    (value : Value α) (contents : Contents α) :
    Turns.outcomes (matcher.allTurns items value contents) =
      (matcher.allCourses items value contents).map Prod.snd := by
  induction items generalizing contents with
  | nil => rfl
  | cons item items induction =>
      have others := induction fun other member => same other (List.mem_cons_of_mem _ member)
      rw [allTurns, Turns.outcomes_andThen, same item List.mem_cons_self, allCourses,
        Course.map_andThen]
      congr 1
      exact funext others

theorem outcomes_itemTurns [BEq α] (matcher : Matcher α) {children : List (Outline α)}
    (ofChildren : ∀ child ∈ children, ∀ value contents,
      Turns.outcomes (matcher.itemTurns child value contents) =
        (matcher.itemCourses child value contents).map Prod.snd)
    (ofRow : ∀ values contents, Turns.outcomes (matcher.rowTurns children values contents) =
      (matcher.rowCourses children values contents).map Prod.snd)
    (id : Nat) (kind : NodeKind α) (value : Value α) (contents : Contents α) :
    Turns.outcomes (matcher.itemTurns (.node id kind children) value contents) =
      (matcher.itemCourses (.node id kind children) value contents).map Prod.snd := by
  cases kind with
  | deconstruct shape =>
      rw [itemTurns, itemCourses]
      cases (matcher.decomposer? id).bind fun decomposer => decomposer value with
      | none => rfl
      | some parts => exact Course.map_exhausted (ofRow parts contents)
  | keyed shape keys =>
      rw [itemTurns, itemCourses]
      cases shape.lookup? keys value with
      | none => rfl
      | some parts => exact Course.map_exhausted (ofRow parts contents)
  | and => exact matcher.outcomes_allTurns ofChildren value contents
  | or =>
      rw [itemTurns, itemCourses, Turns.outcomes_verdict]
      split <;> rfl
  | not =>
      rw [itemTurns, itemCourses, Turns.outcomes_verdict]
      cases (Turns.outcomes (matcher.anyTurns children value contents)).isEmpty <;> rfl
  | test test =>
      rw [itemTurns, itemCourses]
      split <;> rfl
  | _ => rfl

/-- So many passes of a unit, be it a row of items or an item for one value at a time. -/
theorem outcomes_repeated [BEq α] (matcher : Matcher α) {unit : Outline α}
    (ofItem : ∀ value contents, Turns.outcomes (matcher.itemTurns unit value contents) =
      (matcher.itemCourses unit value contents).map Prod.snd)
    (ofParts : ∀ values contents, Turns.outcomes (matcher.partTurns unit values contents) =
      (matcher.partCourses unit values contents).map Prod.snd)
    {count : Nat} {values : List (Value α)} (enough : count ≤ values.length)
    (contents : Contents α) :
    Turns.outcomes (Turns.repeated
        (if unit.kind.isSequence then .inl (matcher.partTurns unit)
          else .inr (matcher.itemTurns unit)) values contents count) =
      (Course.passing
        (if unit.kind.isSequence then matcher.partCourses unit
          else Course.single (matcher.itemCourses unit)) count values contents).map Prod.snd := by
  cases unit.kind.isSequence with
  | true => exact Course.map_passing ofParts count values contents
  | false =>
      have single := Course.map_passing (Course.map_single ofItem) count values contents
      rwa [Turns.passes_single _ _ _ _ enough] at single

theorem outcomes_rowTurns_plain [BEq α] (matcher : Matcher α) {item : Outline α}
    {items : List (Outline α)} (leads : leadingRepetition? items = none)
    (ofItem : ∀ value contents, Turns.outcomes (matcher.itemTurns item value contents) =
      (matcher.itemCourses item value contents).map Prod.snd)
    (ofParts : ∀ values contents, Turns.outcomes (matcher.partTurns item values contents) =
      (matcher.partCourses item values contents).map Prod.snd)
    (ofItems : ∀ values contents, Turns.outcomes (matcher.rowTurns items values contents) =
      (matcher.rowCourses items values contents).map Prod.snd)
    (values : List (Value α)) (contents : Contents α) :
    Turns.outcomes (matcher.rowTurns (item :: items) values contents) =
      (matcher.rowCourses (item :: items) values contents).map Prod.snd := by
  have others : ∀ {turns : Turns α (Place α)} {courses : List (Course × Place α)},
      Turns.outcomes turns = courses.map Prod.snd →
      Turns.outcomes (Turns.andThen turns
          fun place => matcher.rowTurns items place.left place.contents) =
        (Course.andThen courses
          fun place => matcher.rowCourses items place.left place.contents).map Prod.snd := by
    intro turns courses same
    rw [Turns.outcomes_andThen, same, Course.map_andThen]
    congr 1
    exact funext fun place => ofItems place.left place.contents
  have onward := others (Course.map_single ofItem values contents)
  rw [Turns.andThen_single] at onward
  rw [rowTurns_plain matcher leads, rowCourses_plain matcher leads]
  cases item.kind with
  | condition accepts =>
      cases values with
      | nil =>
          cases accepted : accepts (matcher.bindingsIn contents) <;>
            simp [accepted, Turns.outcomes, ofItems]
      | cons value left => rfl
  | repetition minimum greed => rfl
  | sequence => exact others (ofParts values contents)
  | _ => exact onward

/-- Without the courses, the outcomes are those that a search comes upon. -/
theorem outcomes_turns [BEq α] (matcher : Matcher α) : Outline.Inductive (α := α)
    (fun item =>
      (∀ value contents, Turns.outcomes (matcher.itemTurns item value contents) =
        (matcher.itemCourses item value contents).map Prod.snd) ∧
      ∀ values contents, Turns.outcomes (matcher.partTurns item values contents) =
        (matcher.partCourses item values contents).map Prod.snd)
    (fun items => ∀ values contents, Turns.outcomes (matcher.rowTurns items values contents) =
      (matcher.rowCourses items values contents).map Prod.snd) where
  node id kind children ofChildren ofRow :=
    ⟨matcher.outcomes_itemTurns (fun child member => (ofChildren child member).1) ofRow id kind,
      ofRow⟩
  nil values contents := rfl
  repeated unit repetition minimum greed parts items ofUnit ofItems values contents := by
    have offers := fun count (member : count ∈ greed.counts minimum values.length) =>
      matcher.outcomes_repeated ofUnit.1 ofUnit.2 (Greed.mem_counts.mp member).2
        (matcher.openContents repetition contents)
    rw [rowTurns, rowCourses, Turns.outcomes_andThen, Course.map_andThen, Turns.outcomes_flatMap,
      List.map_map, List.map_flatMap, List.flatMap_congr offers]
    congr 1
    exact funext fun place => ofItems place.left place.contents
  plain item items leads ofItem ofItems :=
    matcher.outcomes_rowTurns_plain leads ofItem.1 ofItem.2 ofItems

def courses [BEq α] (matcher : Matcher α) (value : Value α) : List (Course × Contents α) :=
  Course.exhausted
    (matcher.rowCourses [matcher.outline] [value] (Array.replicate matcher.tree.size none))

/-- The course of the match that is accepted: the first one after which equal names have equal
values and the guard consents. -/
def acceptedCourse? [BEq α] (matcher : Matcher α) (guard : Option (Bindings α → Bool))
    (value : Value α) : Option (Course × Contents α) :=
  (matcher.courses value).find? fun offered => (matcher.finalTrial guard offered.2).result.isSome

theorem exists_find?_of_findSome? [BEq α] {matcher : Matcher α}
    {guard : Option (Bindings α → Bool)} {courses : List (Course × Contents α)} {ending : Ending α}
    (found : (courses.map Prod.snd).findSome? (fun contents =>
      ((matcher.finalTrial guard contents).map fun bindings => (contents, some bindings)).result) =
        some ending) :
    ∃ course, courses.find? (fun offered =>
      (matcher.finalTrial guard offered.2).result.isSome) = some (course, ending.1) := by
  induction courses with
  | nil => cases found
  | cons first courses induction =>
      rw [List.map_cons, List.findSome?_cons] at found
      cases result : (matcher.finalTrial guard first.2).result with
      | none =>
          simp only [Trial.map, result, Option.map_none] at found
          rw [List.find?_cons_of_neg (by simp [result])]
          exact induction found
      | some bindings =>
          simp only [Trial.map, result, Option.map_some, Option.some.injEq] at found
          rw [List.find?_cons_of_pos (by simp [result]), ← found]
          exact ⟨first.1, rfl⟩

/-- A search that succeeds has accepted a course, and leaves in the slots what that course has put
there. -/
theorem exists_acceptedCourse [BEq α] {matcher : Matcher α}
    (settled : matcher.Settled matcher.outline) {guard : Option (Bindings α → Bool)}
    {value : Value α} {final : SearchState α}
    (searched : matcher.search guard value = (true, final)) :
    ∃ course, matcher.acceptedCourse? guard value = some (course, final.slots.entries) := by
  rcases search_concludes settled guard value with ⟨-, conclusion⟩
  have outcomes := Course.map_exhausted (matcher.outcomes_turns.row [matcher.outline] [value]
    (Array.replicate matcher.tree.size none))
  rw [Trial.result_explore, outcomes, searched] at conclusion
  split at conclusion
  case h_1 contents answer found =>
    rw [conclusion.2.1]
    exact exists_find?_of_findSome? found
  case h_2 => cases conclusion.1

end Matcher

end Destructure
