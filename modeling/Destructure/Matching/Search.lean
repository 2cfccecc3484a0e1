import Destructure.Matching.Matcher

/-!
The search for a match. Every step is given what is to happen after it, and succeeds only if that
succeeds as well; so a failure anywhere later on, a rejection by a guard included, comes back to
the latest choice that is still open and makes it choose anew. Choices are how often a repetition
repeats; everything else is determined. A step that fails has taken back what it recorded.

Repetitions are searched in one of two ways. A unit that contains no repetition itself matches
each value in one way at most, so the values that it matches are found once, in a row, and only
the count is chosen. Other units, and sequences, are tried anew for every count.
-/

namespace Destructure

inductive Role where
  | guard
  | condition
  deriving DecidableEq

structure Consultation (α : Type) where
  role : Role
  bindings : Bindings α
  accepted : Bool

/-- What never happens in the search for a pattern that has been checked; where it would, the
search fails at that place and takes a note. -/
inductive Anomaly where
  /-- A deconstruction has no decomposer. -/
  | missingDecomposer (id : Nat)
  /-- A repetition, a sequence or a condition is matched against a single value. -/
  | misplacedNode (id : Nat)
  /-- A repetition has no item in front of it. -/
  | strayRepetition (id : Nat)
  deriving DecidableEq

structure SearchState (α : Type) where
  slots : Slots α
  found : Option (Bindings α)
  /-- All questions asked so far, the latest first. -/
  consultations : List (Consultation α)
  anomalies : List Anomaly
  /-- How many items have been tried. -/
  moves : Nat

abbrev Step (α : Type) := SearchState α → Bool × SearchState α

abbrev Continuation (α : Type) := List (Value α) → Step α

namespace SearchState

variable {α : Type}

def start (size : Nat) : SearchState α := ⟨Slots.blank size, none, [], [], 0⟩

def mark (state : SearchState α) : Nat := state.slots.mark

def rollBack (state : SearchState α) (mark : Nat) : SearchState α :=
  { state with slots := state.slots.undo mark }

def move (state : SearchState α) : SearchState α := { state with moves := state.moves + 1 }

def refuse (state : SearchState α) (anomaly : Anomaly) : Bool × SearchState α :=
  (false, { state with anomalies := anomaly :: state.anomalies })

def consult (state : SearchState α) (role : Role) (accepts : Bindings α → Bool)
    (bindings : Bindings α) : Bool × SearchState α :=
  let accepted := accepts bindings
  (accepted, { state with consultations := ⟨role, bindings, accepted⟩ :: state.consultations })

end SearchState

namespace Step

variable {α : Type}

def accept : Step α := fun state => (true, state)

def orRollBack (step : Step α) : Step α := fun state =>
  let mark := state.mark
  match step state with
  | (true, state) => (true, state)
  | (false, state) => (false, state.rollBack mark)

def isolated (step : Step α) : Step α := fun state =>
  let mark := state.mark
  let (matched, state) := step state
  (matched, state.rollBack mark)

def exhausted (next : Step α) : Continuation α := fun left state =>
  if left.isEmpty then next state else (false, state)

/-! ## Repetitions -/

def tryCounts (attempt : Nat → Step α) : List Nat → Step α
  | [], state => (false, state)
  | count :: counts, state =>
    match orRollBack (attempt count) state with
    | (true, state) => (true, state)
    | (false, state) => tryCounts attempt counts state

def eachValue (unit : Value α → Step α → Step α) : List (Value α) → Step α → Step α
  | [], next => next
  | value :: values, next => unit value (eachValue unit values next)

def passes (row : List (Value α) → Continuation α → Step α) :
    Nat → List (Value α) → Continuation α → Step α
  | 0, values, next => next values
  | count + 1, values, next => row values fun left => passes row count left next

abbrev Rest (α : Type) := Nat × List (Value α)

/-- Match values with the unit as long as it matches. The places after each of them are put in
front of those reached before. -/
def stretch (unit : Value α → Step α) :
    List (Value α) → List (Rest α) → SearchState α → List (Rest α) × SearchState α
  | [], reached, state => (reached, state)
  | value :: values, reached, state =>
    match unit value state with
    | (true, state) => stretch unit values ((state.mark, values) :: reached) state
    | (false, state) => (reached, state)

def retreat (next : Continuation α) : List (Rest α) → Step α
  | [], state => (false, state)
  | (mark, left) :: rests, state =>
    match next left (state.rollBack mark) with
    | (true, state) => (true, state)
    | (false, state) => retreat next rests state

def flatGreedy (unit : Value α → Step α) (minimum : Nat) (values : List (Value α))
    (next : Continuation α) : Step α := fun state =>
  let (reached, state) := stretch unit values [(state.mark, values)] state
  retreat next (reached.take (reached.length - minimum)) state

def flatLazy (unit : Value α → Step α) (next : Continuation α) :
    (required : Nat) → List (Value α) → Step α
  | required, values, state =>
    match if required = 0 then orRollBack (next values) state else (false, state) with
    | (true, state) => (true, state)
    | (false, state) =>
      match values with
      | [] => (false, state)
      | value :: values =>
        match unit value state with
        | (true, state) => flatLazy unit next (required - 1) values state
        | (false, state) => (false, state)
  termination_by structural _ values => values

end Step

namespace Matcher

variable {α : Type}

def decomposer? (matcher : Matcher α) (id : Nat) : Option (Decomposer α) :=
  (matcher.decomposers[id]?).join

def depth (matcher : Matcher α) (id : Nat) : Nat := matcher.depths.getD id 0

def branches (matcher : Matcher α) (id : Nat) : Bool := matcher.branching.getD id true

def snapshot (matcher : Matcher α) (state : SearchState α) : Bindings α :=
  state.slots.snapshot matcher.names

def openLists (matcher : Matcher α) (repetition : Nat) (state : SearchState α) : SearchState α :=
  { state with
    slots := (matcher.openers.getD repetition []).foldl
      (fun slots (id, level) => slots.openList id level) state.slots }

def namesAgree [BEq α] (matcher : Matcher α) (slots : Slots α) : Bool :=
  matcher.repeatedNames.all fun ids =>
    match ids.map fun id => (slots.get? id).map Entry.toValue with
    | [] => true
    | first :: others => others.all fun other => first == other

def finish [BEq α] (matcher : Matcher α) (guard : Option (Bindings α → Bool)) : Step α :=
  fun state =>
    if !matcher.namesAgree state.slots then (false, state)
    else
      let bindings := matcher.snapshot state
      match guard with
      | none => (true, { state with found := some bindings })
      | some accepts =>
        match state.consult .guard accepts bindings with
        | (true, state) => (true, { state with found := some bindings })
        | (false, state) => (false, state)

/-- Try the counts of a repetition in its order. A unit is given either as a row of items, which
takes as many values as it likes, or by how it matches a single value. -/
def repeatUnit (matcher : Matcher α) (repetition minimum : Nat) (greed : Greed)
    (unit : (List (Value α) → Continuation α → Step α) ⊕ (Bool × (Value α → Step α → Step α)))
    (values : List (Value α)) (next : Continuation α) : Step α :=
  match unit with
  | .inl row => Step.tryCounts (fun count state =>
      Step.passes row count values next (matcher.openLists repetition state))
        (greed.counts minimum values.length)
  | .inr (true, single) => Step.tryCounts (fun count state =>
      Step.eachValue single (values.take count) (next (values.drop count))
        (matcher.openLists repetition state))
        (greed.counts minimum values.length)
  | .inr (false, single) => Step.orRollBack fun state =>
      let matchOne := fun value => single value Step.accept
      let state := matcher.openLists repetition state
      match greed with
      | .greedy => Step.flatGreedy matchOne minimum values next state
      | .lazy => Step.flatLazy matchOne next minimum values state

mutual
def matchRow [BEq α] (matcher : Matcher α) :
    List (Outline α) → List (Value α) → Continuation α → Step α
  | [], values, next, state => next values state
  | item :: .node repetition (.repetition minimum greed) _ :: items, values, next, state =>
    let unit :=
      if item.kind.isSequence then .inl (matchParts matcher item)
      else .inr (matcher.branches item.id, matchOne matcher item)
    matcher.repeatUnit repetition minimum greed unit values
      (fun left => matchRow matcher items left next) state.move
  | item :: items, values, next, state =>
    let state := state.move
    match item.kind with
    | .condition accepts =>
      if !values.isEmpty then (false, state)
      else
        match state.consult .condition accepts (matcher.snapshot state) with
        | (true, state) => matchRow matcher items values next state
        | (false, state) => (false, state)
    | .repetition _ _ => state.refuse (.strayRepetition item.id)
    | .sequence =>
      matchParts matcher item values (fun left => matchRow matcher items left next) state
    | _ =>
      match values with
      | [] => (false, state)
      | value :: values =>
        matchOne matcher item value (matchRow matcher items values next) state
termination_by structural items => items

def matchParts [BEq α] (matcher : Matcher α) :
    Outline α → List (Value α) → Continuation α → Step α
  | .node _ _ children, values, next, state => matchRow matcher children values next state
termination_by structural item => item

def matchOne [BEq α] (matcher : Matcher α) : Outline α → Value α → Step α → Step α
  | .node id kind children, value, next, state =>
    let state := state.move
    match kind with
    | .test test => if test.accepts value then next state else (false, state)
    | .wildcard => next state
    | .bind _ =>
      Step.orRollBack (fun state =>
        next { state with slots := state.slots.bind id (matcher.depth id) value }) state
    | .deconstruct _ =>
      match matcher.decomposer? id with
      | none => state.refuse (.missingDecomposer id)
      | some decomposer =>
        match decomposer value with
        | none => (false, state)
        | some parts => matchRow matcher children parts (Step.exhausted next) state
    | .keyed shape keys =>
      match shape.lookup? keys value with
      | none => (false, state)
      | some parts => matchRow matcher children parts (Step.exhausted next) state
    | .and => matchAll matcher children value next state
    | .or =>
      match matchAny matcher children value state with
      | (true, state) => next state
      | (false, state) => (false, state)
    | .not =>
      match matchAny matcher children value state with
      | (true, state) => (false, state)
      | (false, state) => next state
    | .sequence | .repetition _ _ | .condition _ => state.refuse (.misplacedNode id)
termination_by structural item => item

def matchAll [BEq α] (matcher : Matcher α) : List (Outline α) → Value α → Step α → Step α
  | [], _, next, state => next state
  | item :: items, value, next, state =>
    matchOne matcher item value (matchAll matcher items value next) state
termination_by structural items => items

def matchAny [BEq α] (matcher : Matcher α) : List (Outline α) → Value α → Step α
  | [], _, state => (false, state)
  | item :: items, value, state =>
    match Step.isolated (matchOne matcher item value Step.accept) state with
    | (true, state) => (true, state)
    | (false, state) => matchAny matcher items value state
termination_by structural items => items
end

/-! ## Matching -/

/-- Search for a match of a value, and for the guard's consent if there is a guard. -/
def search [BEq α] (matcher : Matcher α) (guard : Option (Bindings α → Bool)) (value : Value α) :
    Bool × SearchState α :=
  matchRow matcher [matcher.outline] [value] (Step.exhausted (matcher.finish guard))
    (SearchState.start matcher.tree.size)

def bindingsOf : Bool × SearchState α → Option (Bindings α)
  | (true, state) => state.found
  | (false, _) => none

def consultationsOf (outcome : Bool × SearchState α) : List (Consultation α) :=
  outcome.2.consultations.reverse

def matches? [BEq α] (matcher : Matcher α) (value : Value α) : Option (Bindings α) :=
  bindingsOf (matcher.search none value)

def matchGuarded? [BEq α] (matcher : Matcher α) (guard : Bindings α → Bool) (value : Value α) :
    Option (Bindings α) :=
  bindingsOf (matcher.search (some guard) value)

def isMatch [BEq α] (matcher : Matcher α) (value : Value α) : Bool :=
  (matcher.matches? value).isSome

end Matcher

end Destructure
