import Destructure.Proofs.Matching.Calls

/-!
Notes are never taken back. Whatever a search undoes, the questions it has asked and the notes it
has taken stay, and the table of records keeps its size. So if there is no note at the end of a
search, there was none at any time.
-/

namespace Destructure

variable {α : Type}

open Outline (leadingRepetition?)

structure Slots.Grows (slots later : Slots α) : Prop where
  missed : slots.missed ≤ later.missed
  size : later.entries.size = slots.entries.size

namespace Slots

theorem Grows.refl (slots : Slots α) : Grows slots slots := ⟨Nat.le_refl _, rfl⟩

theorem Grows.trans {first second third : Slots α} (grows : Grows first second)
    (grows' : Grows second third) : Grows first third :=
  ⟨Nat.le_trans grows.missed grows'.missed, grows'.size.trans grows.size⟩

theorem grows_revert (slots : Slots α) (change : Undo α) : Grows slots (slots.revert change) := by
  cases change with
  | restore id former => exact ⟨Nat.le_refl _, Array.size_setIfInBounds⟩
  | pop id levels =>
      rw [revert]
      split
      · exact ⟨Nat.le_refl _, Array.size_setIfInBounds⟩
      · exact ⟨Nat.le_succ _, rfl⟩

theorem grows_undoLatest (slots : Slots α) (count : Nat) :
    Grows slots (slots.undoLatest count) := by
  induction count generalizing slots with
  | zero => exact .refl slots
  | succ count induction =>
      rw [undoLatest]
      split
      · have popped : Grows slots { slots with trail := slots.trail.pop } := ⟨Nat.le_refl _, rfl⟩
        exact (popped.trans (grows_revert _ _)).trans (induction _)
      · exact .refl slots

theorem grows_replace (slots : Slots α) (id : Nat) (record : Entry α) :
    Grows slots (slots.replace id record) := ⟨Nat.le_refl _, Array.size_setIfInBounds⟩

theorem grows_push (slots : Slots α) (id levels : Nat) (entry : Entry α) :
    Grows slots (slots.push id levels entry) := by
  rw [push]
  split
  · exact ⟨Nat.le_refl _, Array.size_setIfInBounds⟩
  · exact ⟨Nat.le_succ _, rfl⟩

theorem grows_openList (slots : Slots α) (id level : Nat) :
    Grows slots (slots.openList id level) := by
  cases level with
  | zero => exact slots.grows_replace id _
  | succ outer => exact slots.grows_push id outer _

theorem grows_bind (slots : Slots α) (id depth : Nat) (value : Value α) :
    Grows slots (slots.bind id depth value) := by
  cases depth with
  | zero => exact slots.grows_replace id _
  | succ outer => exact slots.grows_push id outer _

end Slots

structure SearchState.Grows (state later : SearchState α) : Prop where
  slots : Slots.Grows state.slots later.slots
  consultations : state.consultations <:+ later.consultations
  anomalies : state.anomalies <:+ later.anomalies
  moves : state.moves ≤ later.moves

namespace SearchState

theorem Grows.trans {first second third : SearchState α} (grows : Grows first second)
    (grows' : Grows second third) : Grows first third where
  slots := grows.slots.trans grows'.slots
  consultations := grows.consultations.trans grows'.consultations
  anomalies := grows.anomalies.trans grows'.anomalies
  moves := Nat.le_trans grows.moves grows'.moves

theorem grows_of_slots {state : SearchState α} {slots : Slots α}
    (grows : Slots.Grows state.slots slots) : Grows state { state with slots := slots } :=
  ⟨grows, List.suffix_refl _, List.suffix_refl _, Nat.le_refl _⟩

theorem Grows.refl (state : SearchState α) : Grows state state := grows_of_slots (.refl _)

theorem grows_rollBack (state : SearchState α) (mark : Nat) : Grows state (state.rollBack mark) :=
  grows_of_slots (state.slots.grows_undoLatest _)

theorem grows_move (state : SearchState α) : Grows state state.move :=
  ⟨.refl _, List.suffix_refl _, List.suffix_refl _, Nat.le_succ _⟩

theorem grows_refuse (state : SearchState α) (anomaly : Anomaly) :
    Grows state (state.refuse anomaly).2 :=
  ⟨.refl _, List.suffix_refl _, List.suffix_cons _ _, Nat.le_refl _⟩

theorem grows_consult (state : SearchState α) (role : Role) (accepts : Bindings α → Bool)
    (bindings : Bindings α) : Grows state (state.consult role accepts bindings).2 :=
  ⟨.refl _, List.suffix_cons _ _, List.suffix_refl _, Nat.le_refl _⟩

theorem grows_openLists (matcher : Matcher α) (repetition : Nat) (state : SearchState α) :
    Grows state (matcher.openLists repetition state) := by
  apply grows_of_slots
  generalize matcher.openers.getD repetition [] = openers
  generalize state.slots = slots
  induction openers generalizing slots with
  | nil => exact .refl slots
  | cons opener openers induction => exact (slots.grows_openList _ _).trans (induction _)

end SearchState

open SearchState (Grows)

namespace Step

def Growing (step : Step α) : Prop := ∀ state, Grows state (step state).2

/-- What happens next may depend on whether something has succeeded. -/
theorem grows_match {state : SearchState α} {outcome : Bool × SearchState α}
    (grows : Grows state outcome.2) {yes no : Step α} (growingYes : Growing yes)
    (growingNo : Growing no) :
    Grows state
      (match outcome with
        | (true, later) => yes later
        | (false, later) => no later).2 := by
  rcases outcome with ⟨_ | _, later⟩
  · exact grows.trans (growingNo later)
  · exact grows.trans (growingYes later)

theorem growing_return (matched : Bool) : Growing fun state : SearchState α => (matched, state) :=
  .refl

theorem Growing.after_move {step : Step α} (growing : Growing step) :
    Growing fun state => step state.move :=
  fun state => state.grows_move.trans (growing state.move)

section

variable {step : Step α} (growing : Growing step)
include growing

theorem growing_orRollBack : Growing (orRollBack step) := fun state =>
  grows_match (growing state) (growing_return true) fun later => later.grows_rollBack _

theorem growing_isolated : Growing (isolated step) :=
  fun state => (growing state).trans ((step state).2.grows_rollBack _)

theorem growing_exhausted (left : List (Value α)) : Growing (exhausted step left) := by
  intro state
  rw [exhausted]
  split
  · exact growing state
  · exact .refl state

end

theorem growing_tryCounts {attempt : Nat → Step α} (growing : ∀ count, Growing (attempt count))
    (counts : List Nat) : Growing (tryCounts attempt counts) := by
  induction counts with
  | nil => exact growing_return false
  | cons count counts induction =>
      exact fun state =>
        grows_match (growing_orRollBack (growing count) state) (growing_return true) induction

def GrowingItem (single : Value α → Step α → Step α) : Prop :=
  ∀ value next, Growing next → Growing (single value next)

def GrowingRow (row : List (Value α) → Continuation α → Step α) : Prop :=
  ∀ values next, (∀ left, Growing (next left)) → Growing (row values next)

theorem growing_eachValue {single : Value α → Step α → Step α} (growingItem : GrowingItem single)
    {next : Step α} (growing : Growing next) (values : List (Value α)) :
    Growing (eachValue single values next) := by
  induction values with
  | nil => exact growing
  | cons value values induction => exact growingItem value _ induction

theorem growing_passes {row : List (Value α) → Continuation α → Step α}
    (growingRow : GrowingRow row) {next : Continuation α} (growing : ∀ left, Growing (next left))
    (count : Nat) (values : List (Value α)) : Growing (passes row count values next) := by
  induction count generalizing values with
  | zero => exact growing values
  | succ count induction => exact growingRow values _ induction

section

variable {unit : Value α → Step α} (growingUnit : ∀ value, Growing (unit value))
variable {next : Continuation α} (growing : ∀ left, Growing (next left))

include growingUnit in
theorem grows_stretch (values : List (Value α)) (reached : List (Rest α)) (state : SearchState α) :
    Grows state (stretch unit values reached state).2 := by
  induction values generalizing reached state with
  | nil => exact .refl state
  | cons value values induction =>
      have grows := growingUnit value state
      rw [stretch]
      rcases ended : unit value state with ⟨matched, later⟩
      rw [ended] at grows
      cases matched with
      | true => exact grows.trans (induction _ later)
      | false => exact grows

include growing in
theorem growing_retreat (rests : List (Rest α)) : Growing (retreat next rests) := by
  induction rests with
  | nil => exact growing_return false
  | cons rest rests induction =>
      intro state
      have back := (state.grows_rollBack rest.1).trans (growing rest.2 _)
      exact grows_match back (growing_return true) induction

include growingUnit growing

theorem growing_flatGreedy (minimum : Nat) (values : List (Value α)) :
    Growing (flatGreedy unit minimum values next) :=
  fun state => (grows_stretch growingUnit values _ state).trans (growing_retreat growing _ _)

theorem growing_flatLazy (required : Nat) (values : List (Value α)) :
    Growing (flatLazy unit next required values) := by
  have here (required : Nat) (values : List (Value α)) : Growing fun state =>
      if required = 0 then orRollBack (next values) state else (false, state) := by
    intro state
    split
    · exact growing_orRollBack (growing values) state
    · exact .refl state
  induction values generalizing required with
  | nil =>
      intro state
      rw [flatLazy]
      exact grows_match (here required [] state) (growing_return true) (growing_return false)
  | cons value values induction =>
      intro state
      rw [flatLazy]
      exact grows_match (here required (value :: values) state) (growing_return true)
        fun later => grows_match (growingUnit value later) (induction (required - 1))
          (growing_return false)

end

end Step

namespace Matcher

open Step (Growing GrowingItem GrowingRow grows_match growing_return)

section

variable {matcher : Matcher α}

theorem growing_openLists (repetition : Nat) {step : Step α} (growing : Growing step) :
    Growing fun state => step (matcher.openLists repetition state) :=
  fun state => (state.grows_openLists matcher repetition).trans (growing _)

theorem growing_repeatUnit (repetition minimum : Nat) (greed : Greed)
    {unit : (List (Value α) → Continuation α → Step α) ⊕ (Bool × (Value α → Step α → Step α))}
    (growingUnit : match unit with
      | .inl row => GrowingRow row
      | .inr (_, single) => GrowingItem single)
    (values : List (Value α)) {next : Continuation α} (growing : ∀ left, Growing (next left)) :
    Growing (matcher.repeatUnit repetition minimum greed unit values next) := by
  match unit with
  | .inl row =>
      apply Step.growing_tryCounts
      exact fun count =>
        growing_openLists repetition (Step.growing_passes growingUnit growing count values)
  | .inr (true, single) =>
      apply Step.growing_tryCounts
      exact fun count => growing_openLists repetition
        (Step.growing_eachValue growingUnit (growing (values.drop count)) (values.take count))
  | .inr (false, single) =>
      have once := fun value => growingUnit value _ (growing_return true)
      apply Step.growing_orRollBack
      cases greed with
      | greedy =>
          exact growing_openLists repetition (Step.growing_flatGreedy once growing minimum values)
      | lazy =>
          exact growing_openLists repetition (Step.growing_flatLazy once growing minimum values)

end

variable [BEq α] (matcher : Matcher α)

theorem growing_finish (guard : Option (Bindings α → Bool)) : Growing (matcher.finish guard) := by
  intro state
  rw [finish]
  split
  · exact .refl state
  · cases guard with
    | none => exact ⟨.refl _, List.suffix_refl _, List.suffix_refl _, Nat.le_refl _⟩
    | some accepts =>
        exact grows_match (state.grows_consult .guard accepts _)
          (fun later => ⟨.refl _, List.suffix_refl _, List.suffix_refl _, Nat.le_refl _⟩)
          (growing_return false)

section

variable {matcher} {items : List (Outline α)}
variable (growingItems : ∀ item ∈ items, GrowingItem (matcher.matchOne item))
include growingItems

theorem growing_matchAll : GrowingItem (matcher.matchAll items) := by
  intro value next growing
  induction items with
  | nil => exact growing
  | cons item items induction =>
      rcases List.forall_mem_cons.mp growingItems with ⟨here, others⟩
      exact here value _ (induction others)

theorem growing_matchAny (value : Value α) : Growing (matcher.matchAny items value) := by
  induction items with
  | nil => exact growing_return false
  | cons item items induction =>
      rcases List.forall_mem_cons.mp growingItems with ⟨here, others⟩
      have alone := Step.growing_isolated (here value _ (growing_return true))
      exact fun state => grows_match (alone state) (growing_return true) (induction others)

end

theorem growing_plain {item : Outline α} {items : List (Outline α)}
    (leads : leadingRepetition? items = none) (growingItem : GrowingItem (matcher.matchOne item))
    (growingParts : GrowingRow (matcher.matchParts item))
    (growingItems : GrowingRow (matcher.matchRow items)) :
    GrowingRow (matcher.matchRow (item :: items)) := by
  intro values next growing state
  have others := fun left => growingItems left next growing
  rw [matchRow_plain matcher leads]
  cases item.kind with
  | condition accepts =>
      cases values with
      | cons value values => exact state.grows_move
      | nil =>
          exact state.grows_move.trans (grows_match (state.move.grows_consult .condition accepts _)
            (others []) (growing_return false))
  | repetition minimum greed => exact state.grows_move.trans (state.move.grows_refuse _)
  | sequence => exact (growingParts values _ others).after_move state
  | _ =>
      cases values with
      | nil => exact state.grows_move
      | cons value values => exact (growingItem value _ (others values)).after_move state

theorem growing_node (id : Nat) (kind : NodeKind α) {children : List (Outline α)}
    (growingChildren : ∀ child ∈ children, GrowingItem (matcher.matchOne child))
    (growingRow : GrowingRow (matcher.matchRow children)) :
    GrowingItem (matcher.matchOne (.node id kind children)) := by
  intro value next growing
  have onward := growing.after_move
  have failed : Growing fun state : SearchState α => (false, state.move) :=
    (growing_return false).after_move
  have parts := fun values =>
    (growingRow values _ (Step.growing_exhausted growing)).after_move
  cases kind with
  | test test =>
      intro state
      simp only [matchOne]
      split
      · exact onward state
      · exact failed state
  | wildcard => exact onward
  | bind name =>
      apply Growing.after_move
      apply Step.growing_orRollBack
      intro state
      exact (SearchState.grows_of_slots (state.slots.grows_bind _ _ value)).trans (growing _)
  | deconstruct shape =>
      intro state
      simp only [matchOne]
      split
      · exact state.grows_move.trans (state.move.grows_refuse _)
      · split
        · exact failed state
        · exact parts _ state
  | keyed shape keys =>
      intro state
      simp only [matchOne]
      split
      · exact failed state
      · exact parts _ state
  | and => exact (growing_matchAll growingChildren value next growing).after_move
  | or =>
      have any := growing_matchAny growingChildren value
      exact Growing.after_move fun state => grows_match (any state) growing (growing_return false)
  | not =>
      have any := growing_matchAny growingChildren value
      exact Growing.after_move fun state => grows_match (any state) (growing_return false) growing
  | sequence => exact Growing.after_move fun state => state.grows_refuse _
  | repetition minimum greed => exact Growing.after_move fun state => state.grows_refuse _
  | condition accepts => exact Growing.after_move fun state => state.grows_refuse _

theorem growing_repetition {unit : Outline α} (growingItem : GrowingItem (matcher.matchOne unit))
    (growingParts : GrowingRow (matcher.matchParts unit)) (repetition minimum : Nat)
    (greed : Greed) (values : List (Value α)) {next : Continuation α}
    (growing : ∀ left, Growing (next left)) :
    Growing (matcher.repeatUnit repetition minimum greed
      (if unit.kind.isSequence then .inl (matcher.matchParts unit)
      else .inr (matcher.branches unit.id, matcher.matchOne unit)) values next) := by
  apply growing_repeatUnit repetition minimum greed _ values growing
  cases unit.kind.isSequence with
  | true => exact growingParts
  | false => exact growingItem

theorem growing_items : Outline.Inductive
    (fun item => GrowingItem (matcher.matchOne item) ∧ GrowingRow (matcher.matchParts item))
    (fun items => GrowingRow (matcher.matchRow items)) where
  nil values _ growing := growing values
  repeated unit repetition minimum greed parts items ofUnit ofItems values next growing := by
    have others := fun left => ofItems left next growing
    exact (matcher.growing_repetition ofUnit.1 ofUnit.2 repetition minimum greed values
      others).after_move
  plain item items leads ofItem ofItems := matcher.growing_plain leads ofItem.1 ofItem.2 ofItems
  node id kind children ofChildren ofRow :=
    ⟨matcher.growing_node id kind (fun child member => (ofChildren child member).1) ofRow, ofRow⟩

/-- No call of a search takes a note back. -/
theorem Call.growing {matcher : Matcher α} {guard : Option (Bindings α → Bool)} {step : Step α}
    (call : matcher.Call guard step) : Growing step := by
  have ofItem := matcher.growing_items.item
  induction call with
  | finish => exact matcher.growing_finish guard
  | accept => exact growing_return true
  | exhausted after left induction => exact Step.growing_exhausted induction left
  | row holds after values induction => exact matcher.growing_items.row _ values _ induction
  | one inside after value induction => exact (ofItem _).1 value _ induction
  | all holds after value induction =>
      exact growing_matchAll (fun item _ => (ofItem item).1) value _ induction
  | repetition holds after values induction =>
      exact matcher.growing_repetition (ofItem _).1 (ofItem _).2 _ _ _ values induction
  | each inside after values induction =>
      exact Step.growing_eachValue (ofItem _).1 induction values
  | passes inside after count values induction =>
      exact Step.growing_passes (ofItem _).2 induction count values

end Matcher

end Destructure
