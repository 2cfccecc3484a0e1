import Destructure.Proofs.Matching.Correspondence
import Destructure.Proofs.Matching.Safety
import Destructure.Proofs.Pattern.Units

/-!
The search for a compiled pattern takes no note. Single values are matched only against nodes that
can take one, rows never start with a repetition, every deconstruction has its decomposer, and
wherever the search gets to, the lists of the repetitions around that place are there.
-/

namespace Destructure.Matcher

variable {α : Type}

open Contents (Opened within)
open Slots (Retraces)
open Step (SafeItem SafeRow)
open Outline (number numberAll leadingRepetition?)

section Steps

variable {matcher : Matcher α} {levels : Nat → Option Nat} {after : Contents α → Prop}
variable {step next : Step α}

theorem safe_move {left : Slots α → Slots α → Prop} (safe : Safe left levels after step) :
    Safe left levels after fun state => step state.move := by
  intro state opened
  refine .of_eq ?_ ?_ (safe state.move opened)
  · rfl
  · rfl

theorem safe_of_within {left : Slots α → Slots α → Prop} {ids : List Nat} {depth : Nat}
    (around : ∀ id ∈ ids, levels id = some depth) (safe : Safe left levels after step) :
    Safe left (within ids depth levels) after step :=
  fun state opened => safe state (opened.of_within around)

theorem safe_openLists {repetition depth : Nat} {ids : List Nat}
    (openers : matcher.openers.getD repetition [] = ids.map fun id => (id, depth))
    (around : ∀ id ∈ ids, levels id = some depth)
    (safe : Safe Retraces (within ids depth levels) after step) :
    Safe Retraces levels after fun state => step (matcher.openLists repetition state) := by
  intro state opened
  rcases opened_openLists openers around opened with ⟨retraces, inside⟩
  exact (safe _ inside).of_retraces retraces rfl

theorem safe_bind {id depth : Nat} (level : levels id = some depth) (value : Value α)
    (safe : Safe Eq levels after next) :
    Safe Eq levels after
      (Step.orRollBack fun state =>
        next { state with slots := state.slots.bind id depth value }) := by
  apply Step.safe_orRollBack
  intro state opened
  have room : Opened levels (state.slots.bind id depth value).entries := by
    rw [Slots.entries_bind]
    exact opened.put level _
  have bound := safe { state with slots := state.slots.bind id depth value } room
  refine .of_retraces ?_ ?_ bound.loosely
  · exact Slots.retraces_bind (opened id depth level) value
  · rfl

theorem safe_repeatUnit {repetition depth : Nat} {ids : List Nat}
    (openers : matcher.openers.getD repetition [] = ids.map fun id => (id, depth))
    (around : ∀ id ∈ ids, levels id = some depth)
    {unit : (List (Value α) → Continuation α → Step α) ⊕ (Bool × (Value α → Step α → Step α))}
    (safeUnit : match unit with
      | .inl row => SafeRow (within ids depth levels) row
      | .inr (_, single) => SafeItem (within ids depth levels) single)
    (minimum : Nat) (greed : Greed) (values : List (Value α)) {next : Continuation α}
    (safe : ∀ left, Safe Eq levels after (next left)) :
    Safe Eq levels after (matcher.repeatUnit repetition minimum greed unit values next) := by
  have inside := fun left => safe_of_within around (safe left)
  have opens {step : Step α} (safe : Safe Retraces (within ids depth levels) after step) :=
    safe_openLists openers around safe
  match unit with
  | .inl row =>
      apply Step.safe_tryCounts
      intro count
      apply opens
      exact fun state opened =>
        (Step.safe_passes safeUnit inside count values state opened).loosely
  | .inr (true, single) =>
      apply Step.safe_tryCounts
      intro count
      apply opens
      exact fun state opened => (Step.safe_eachValue safeUnit (inside (values.drop count))
        (values.take count) state opened).loosely
  | .inr (false, single) =>
      have once := fun value => safeUnit _ value _ Step.safe_accept
      apply Step.safe_orRollBack
      cases greed with
      | greedy => exact opens (Step.safe_flatGreedy once inside minimum values)
      | lazy => exact opens (Step.safe_flatLazy once inside minimum values)

end Steps

section Nodes

variable [BEq α] {matcher : Matcher α} {levels : Nat → Option Nat} {items : List (Outline α)}
variable (safeItems : ∀ item ∈ items, SafeItem levels (matcher.matchOne item))
include safeItems

theorem safe_matchAll : SafeItem levels (matcher.matchAll items) := by
  intro after value next safe
  induction items with
  | nil => exact safe
  | cons item items induction =>
      rcases List.forall_mem_cons.mp safeItems with ⟨here, others⟩
      exact here after value _ (induction others)

theorem matchAny_keeps (value : Value α) {state : SearchState α}
    (opened : Opened levels state.slots.entries) :
    (matcher.matchAny items value state).2.slots = state.slots ∧
      (matcher.matchAny items value state).2.anomalies = state.anomalies := by
  induction items generalizing state with
  | nil => exact ⟨rfl, rfl⟩
  | cons item items induction =>
      rcases List.forall_mem_cons.mp safeItems with ⟨here, others⟩
      have alone := Step.isolated_keeps (here _ value _ Step.safe_accept) opened
      simp only [matchAny]
      rcases ended : Step.isolated (matcher.matchOne item value Step.accept) state with
        ⟨matched, later⟩
      rw [ended] at alone
      rcases alone with ⟨slots, anomalies⟩
      cases matched with
      | true => exact ⟨slots, anomalies⟩
      | false =>
          rcases induction others (slots.symm ▸ opened) with ⟨slots', anomalies'⟩
          exact ⟨slots'.trans slots, anomalies'.trans anomalies⟩

/-- Go on in one of two ways, depending on whether some item matches. -/
theorem safe_verdict {after : Contents α → Prop} {onMatch onFailure : Step α}
    (safeMatch : Safe Eq levels after onMatch) (safeFailure : Safe Eq levels after onFailure)
    (value : Value α) :
    Safe Eq levels after fun state =>
      match matcher.matchAny items value state with
      | (true, later) => onMatch later
      | (false, later) => onFailure later := by
  intro state opened
  rcases matchAny_keeps safeItems value opened with ⟨slots, anomalies⟩
  rcases ended : matcher.matchAny items value state with ⟨matched, later⟩
  rw [ended] at slots anomalies
  have opened' : Opened levels later.slots.entries := slots.symm ▸ opened
  simp only [ended]
  cases matched with
  | true => exact (safeMatch later opened').of_eq slots.symm anomalies
  | false => exact (safeFailure later opened').of_eq slots.symm anomalies

end Nodes

/-! ## Items and rows -/

def outside (size : Nat) : Nat → Option Nat := fun id => if id < size then some 0 else none

theorem opened_outside (size : Nat) :
    Opened (outside size) (Array.replicate size (none : Option (Entry α))) := by
  intro id depth level
  simp only [outside, Option.ite_none_right_eq_some] at level
  rcases level with ⟨inside, level⟩
  cases level
  simpa [Contents.Ready] using inside

theorem takesValue_of_plain {pattern : Pattern α} (repetition : pattern.isRepetition = false)
    (sequence : pattern.isSequence = false) (condition : pattern.isCondition = false) :
    pattern.takesValue := by
  rw [Pattern.takesValue, repetition, sequence, condition]
  rfl

section Items

variable [BEq α] {matcher : Matcher α} {registry : Registry α} {defaultGreed : Greed}

def SafePattern (matcher : Matcher α) (registry : Registry α) (defaultGreed : Greed)
    (pattern : Pattern α) : Prop :=
  ∀ first depth levels, pattern.Orderly → pattern.Steady →
    matcher.Fits registry depth (number defaultGreed pattern first).1 →
    (∀ place ∈ (number defaultGreed pattern first).1.places, levels place.2 = some depth) →
    (pattern.takesValue →
      SafeItem levels (matcher.matchOne (number defaultGreed pattern first).1)) ∧
      (pattern.isSequence →
        SafeRow levels (matcher.matchParts (number defaultGreed pattern first).1))

def SafePatterns (matcher : Matcher α) (registry : Registry α) (defaultGreed : Greed)
    (patterns : List (Pattern α)) : Prop :=
  ∀ first depth levels, (∀ pattern ∈ patterns, pattern.Orderly ∧ pattern.Steady) →
    Pattern.UnitsUnconditional patterns → Pattern.Founded patterns →
    matcher.FitsRow registry depth true (numberAll defaultGreed patterns first).1 →
    (∀ place ∈ (numberAll defaultGreed patterns first).1.flatMap Outline.places,
      levels place.2 = some depth) →
    SafeRow levels (matcher.matchRow (numberAll defaultGreed patterns first).1)

theorem safePatterns_repeated {unit : Pattern α} {items : List (Pattern α)} (minimum : Nat)
    (greed : Option Greed) (ofUnit : matcher.SafePattern registry defaultGreed unit)
    (ofItems : matcher.SafePatterns registry defaultGreed items) :
    matcher.SafePatterns registry defaultGreed (unit :: .repetition minimum greed :: items) := by
  intro first depth levels orderly units founded fits around
  rw [Outline.numberAll_repeated] at fits around ⊢
  rcases fits with ⟨⟨opens, fitsUnit⟩, -, fitsItems⟩
  rcases List.forall_mem_cons.mp orderly with ⟨⟨orderlyUnit, steadyUnit⟩, others⟩
  rw [List.flatMap_cons, List.flatMap_cons] at around
  have ids : (number defaultGreed unit first).1.places.map (fun place => (place.2, depth)) =
      ((number defaultGreed unit first).1.places.map Prod.snd).map fun id => (id, depth) := by
    rw [List.map_map]
    rfl
  have aroundUnit : ∀ id ∈ (number defaultGreed unit first).1.places.map Prod.snd,
      levels id = some depth := by
    intro id member
    rcases List.mem_map.mp member with ⟨place, among, rfl⟩
    exact around place (List.mem_append_left _ among)
  have unconditional := units.1 rfl
  rw [Pattern.holdsCondition_eq, Bool.or_eq_false_iff] at unconditional
  rcases ofUnit first (depth + 1) (within
      ((number defaultGreed unit first).1.places.map Prod.snd) depth levels) orderlyUnit steadyUnit
      fitsUnit (fun place among => if_pos (List.mem_map_of_mem among)) with ⟨single, sequence⟩
  intro after values next safe
  have rest := fun left => ofItems _ depth levels
    (fun pattern member => others pattern (List.mem_cons_of_mem _ member)) units.2.2
    founded.repeated fitsItems
    (fun place among => around place (List.mem_append_right _ (List.mem_append_right _ among)))
    after left next safe
  simp only [matchRow]
  apply safe_move
  apply safe_repeatUnit (opens.trans ids) aroundUnit _ minimum _ values rest
  rw [Outline.kind_number, Pattern.isSequence_nodeKind]
  cases isSequence : unit.isSequence with
  | true => exact sequence isSequence
  | false =>
      exact single (takesValue_of_plain founded.isRepetition_eq_false isSequence unconditional.1)

theorem safePatterns_plain {item : Pattern α} {items : List (Pattern α)}
    (leads : Pattern.repetitionLeads items = false)
    (ofItem : matcher.SafePattern registry defaultGreed item)
    (ofItems : matcher.SafePatterns registry defaultGreed items) :
    matcher.SafePatterns registry defaultGreed (item :: items) := by
  intro first depth levels orderly units founded fits around
  rw [Outline.numberAll_cons] at fits around ⊢
  have leads' := leadingRepetition?_numberAll defaultGreed leads (number defaultGreed item first).2
  rcases fits with ⟨fitsItem, fitsItems⟩
  rw [Outline.surrounding?, if_pos rfl, leads'] at fitsItem
  rcases List.forall_mem_cons.mp orderly with ⟨⟨orderlyItem, steadyItem⟩, others⟩
  rw [List.flatMap_cons] at around
  rcases ofItem first depth levels orderlyItem steadyItem fitsItem
    (fun place among => around place (List.mem_append_left _ among)) with ⟨single, sequence⟩
  intro after values next safe
  have rest := fun left => ofItems _ depth levels others units.2 (founded.plain leads) fitsItems
    (fun place among => around place (List.mem_append_right _ among)) after left next safe
  have repetition := founded.isRepetition_eq_false
  intro state opened
  rw [matchRow_plain matcher leads', Outline.kind_number]
  cases item with
  | condition accepts =>
      cases values with
      | cons value values => exact .failure rfl rfl
      | nil =>
          cases accepted : accepts (matcher.snapshot state.move) with
          | true =>
              simp only [Pattern.nodeKind, SearchState.consult, accepted]
              refine .of_eq ?_ ?_ (rest [] { state.move with consultations := _ } opened)
              · rfl
              · rfl
          | false =>
              simp only [Pattern.nodeKind, SearchState.consult, accepted]
              exact .failure rfl rfl
  | repetition minimum greed => cases repetition
  | sequence parts => exact safe_move (sequence rfl after values _ rest) state opened
  | _ =>
      cases values with
      | nil => exact .failure rfl rfl
      | cons value values => exact safe_move (single rfl after value _ (rest values)) state opened

theorem safe_operands {operands : List (Pattern α)}
    (ofOperands : ∀ operand ∈ operands, matcher.SafePattern registry defaultGreed operand)
    (orderly : ∀ operand ∈ operands, operand.Orderly ∧ operand.Steady)
    (alone : ∀ operand ∈ operands, operand.takesValue) (first : Nat) {depth : Nat}
    {levels : Nat → Option Nat}
    (fits : matcher.FitsRow registry depth false (numberAll defaultGreed operands first).1)
    (around : ∀ place ∈ (numberAll defaultGreed operands first).1.flatMap Outline.places,
      levels place.2 = some depth) :
    ∀ child ∈ (numberAll defaultGreed operands first).1,
      SafeItem levels (matcher.matchOne child) := by
  induction operands generalizing first with
  | nil => exact List.forall_mem_nil _
  | cons operand operands induction =>
      rw [Outline.numberAll_cons] at fits around ⊢
      rw [List.flatMap_cons] at around
      rw [List.forall_mem_cons] at ofOperands orderly alone ⊢
      have here := ofOperands.1 first depth levels orderly.1.1 orderly.1.2 fits.1
        fun place among => around place (List.mem_append_left _ among)
      exact ⟨here.1 alone.1, induction ofOperands.2 orderly.2 alone.2 _ fits.2
        fun place among => around place (List.mem_append_right _ among)⟩

theorem safePattern_of_parts {pattern : Pattern α}
    (ofParts : ∀ part ∈ pattern.parts, matcher.SafePattern registry defaultGreed part)
    (ofRow : matcher.SafePatterns registry defaultGreed pattern.parts) :
    matcher.SafePattern registry defaultGreed pattern := by
  intro first depth levels orderly steady fits around
  have partsOrderly : ∀ part ∈ pattern.parts, part.Orderly ∧ part.Steady :=
    fun part member => ⟨orderly.parts member, steady.part member⟩
  have placed := orderly.wellPlaced
  rw [Outline.number_eq] at fits around ⊢
  rw [Outline.places_node] at around
  rcases fits with ⟨fitsBind, fitsShape, fitsParts⟩
  rw [Pattern.isOrdered_nodeKind] at fitsParts
  have aroundParts := fun place among => around place (List.mem_append_right _ among)
  have row (ordered : pattern.isOrdered) : SafeRow levels
      (matcher.matchRow (numberAll defaultGreed pattern.parts (first + 1)).1) :=
    ofRow (first + 1) depth levels partsOrderly placed.unitsUnconditional steady.founded
      (ordered ▸ fitsParts) aroundParts
  have alone (unordered : pattern.isOrdered = false) (without : pattern.holdsItems = false) :=
    safe_operands ofParts partsOrderly (placed.alone without) (first + 1)
      (unordered ▸ fitsParts) aroundParts
  refine ⟨fun takes => ?_, fun sequence => ?_⟩
  · intro after value next safe
    have failure : Safe Eq levels after fun state : SearchState α => (false, state) :=
      fun state _ => .failure rfl rfl
    have tested (test : Test α) : Safe Eq levels after fun state =>
        if test.accepts value then next state.move else (false, state.move) := by
      split
      · exact safe_move safe
      · exact safe_move failure
    have parts (ordered : pattern.isOrdered) (values : List (Value α)) : Safe Eq levels after
        (matcher.matchRow (numberAll defaultGreed pattern.parts (first + 1)).1 values
          (Step.exhausted next)) :=
      row ordered after values _ (Step.safe_exhausted safe)
    cases pattern with
    | bind name =>
        have level : levels first = some depth :=
          around (name, first) (List.mem_append_left _ List.mem_cons_self)
        rw [← fitsBind name rfl] at level
        exact safe_move (safe_bind level value safe)
    | literal expected => exact tested (.equal expected)
    | compared expected accepts => exact tested (.compared expected accepts)
    | kind expected => exact tested (.kind expected)
    | wildcard => exact safe_move safe
    | deconstruct shape items =>
        rcases fitsShape shape rfl with ⟨decomposer, -, known⟩
        cases taken : decomposer value with
        | none => simpa [Pattern.nodeKind, matchOne, known, taken] using safe_move failure
        | some values =>
            simpa [Pattern.nodeKind, matchOne, known, taken] using safe_move (parts rfl values)
    | keyed shape entries =>
        cases taken : shape.lookup? (entries.map Prod.fst) value with
        | none => simpa [Pattern.nodeKind, matchOne, taken] using safe_move failure
        | some values =>
            simpa [Pattern.nodeKind, matchOne, taken] using safe_move (parts rfl values)
    | and operands =>
        exact safe_move (safe_matchAll (alone rfl rfl) after value next safe)
    | or operands => exact safe_move (safe_verdict (alone rfl rfl) safe failure value)
    | not operands => exact safe_move (safe_verdict (alone rfl rfl) failure safe value)
    | repetition minimum greed => cases takes
    | sequence items => cases takes
    | condition accepts => cases takes
  · cases pattern with
    | sequence items => exact row rfl
    | _ => cases sequence

theorem safe_patterns (matcher : Matcher α) (registry : Registry α) (defaultGreed : Greed) :
    Pattern.Inductive (matcher.SafePattern registry defaultGreed)
      (matcher.SafePatterns registry defaultGreed) where
  whole _ ofParts ofRow := safePattern_of_parts ofParts ofRow
  nil _ _ _ _ _ _ _ _ _ values _ safe := safe values
  repeated _ minimum greed _ ofUnit ofItems := safePatterns_repeated minimum greed ofUnit ofItems
  plain _ _ leads ofItem ofItems := safePatterns_plain leads ofItem ofItems

/-! ## A whole search -/

theorem safe_finish (levels : Nat → Option Nat) (guard : Option (Bindings α → Bool)) :
    Safe Eq levels (Opened levels) (matcher.finish guard) := by
  intro state opened
  rw [finish]
  split
  · exact .failure rfl rfl
  · cases guard with
    | none => exact ⟨rfl, fun _ => ⟨.refl _, opened⟩, fun _ => rfl⟩
    | some accepts =>
        cases accepted : accepts (matcher.snapshot state) with
        | true =>
            simp only [SearchState.consult, accepted]
            exact ⟨rfl, fun _ => ⟨.refl _, opened⟩, fun _ => rfl⟩
        | false =>
            simp only [SearchState.consult, accepted]
            exact .failure rfl rfl

/-- A search takes no note, and leaves the slots blank unless it finds a match. -/
theorem Compiled.search_keeps {pattern : Pattern α} {options : Options}
    (compiled : matcher.Compiled pattern registry options) (steady : pattern.Steady)
    (takes : pattern.takesValue) (guard : Option (Bindings α → Bool)) (value : Value α) :
    Keeps Eq (Opened (outside matcher.tree.size)) (SearchState.start matcher.tree.size)
      (matcher.search guard value) := by
  have safe := (matcher.safe_patterns registry options.defaultGreed).row [pattern] 0 0
    (outside matcher.tree.size) (List.forall_mem_singleton.mpr ⟨compiled.orderly, steady⟩)
    ⟨fun leads => absurd leads Bool.false_ne_true, trivial⟩ (Pattern.founded_singleton takes)
  rw [compiled.numberAll_alone] at safe
  refine safe ⟨compiled.fits, trivial⟩ ?_ _ [value] _
    (Step.safe_exhausted (matcher.safe_finish _ guard)) _ (opened_outside _)
  intro place member
  rw [List.flatMap_singleton] at member
  rcases List.mem_map.mp ((Outline.sublist_ids_places _).subset (List.mem_map_of_mem member)) with
    ⟨node, inside, equal⟩
  exact if_pos (equal ▸ compiled.lt_size inside)

end Items

end Destructure.Matcher
