import Destructure.Proofs.Matching.Stretch
import Destructure.Proofs.Pattern.Rows

/-!
The search carries out the turns that its items offer. This takes one fact about the matcher: a
unit that it repeats along the values matches each value in one way at most, without asking
anything. Where it takes every unit for one that may branch, nothing is asked of it.
-/

namespace Destructure.Matcher

variable {α : Type}

open Slots (Same Extends)
open Outline (leadingRepetition?)

mutual
def Settled [BEq α] (matcher : Matcher α) : Outline α → Prop
  | .node _ _ children => SettledRow matcher children

def SettledRow [BEq α] (matcher : Matcher α) : List (Outline α) → Prop
  | [] => True
  | item :: items =>
    Settled matcher item ∧
      ((leadingRepetition? items).isSome → item.kind.isSequence = false →
        matcher.branches item.id = false →
          ∃ way : Value α → Contents α → Option (Contents α), ∀ value contents,
            matcher.itemTurns item value contents = .ofOption (way value contents)) ∧
      SettledRow matcher items
end

theorem matchRow_plain [BEq α] (matcher : Matcher α) {item : Outline α} {items : List (Outline α)}
    (leads : leadingRepetition? items = none) (values : List (Value α)) (next : Continuation α)
    (state : SearchState α) :
    matcher.matchRow (item :: items) values next state =
      match item.kind with
      | .condition accepts =>
        if !values.isEmpty then (false, state.move)
        else
          match state.move.consult .condition accepts (matcher.snapshot state.move) with
          | (true, state) => matchRow matcher items values next state
          | (false, state) => (false, state)
      | .repetition _ _ => state.move.refuse (.strayRepetition item.id)
      | .sequence =>
        matchParts matcher item values (fun left => matchRow matcher items left next) state.move
      | _ =>
        match values with
        | [] => (false, state.move)
        | value :: values =>
          matchOne matcher item value (matchRow matcher items values next) state.move := by
  rcases items with _ | ⟨⟨id, kind, parts⟩, items⟩
  · rfl
  · cases kind with
    | repetition minimum greed => cases leads
    | _ => rfl

theorem rowTurns_plain [BEq α] (matcher : Matcher α) {item : Outline α} {items : List (Outline α)}
    (leads : leadingRepetition? items = none) (values : List (Value α)) (contents : Contents α) :
    matcher.rowTurns (item :: items) values contents =
      match item.kind with
      | .condition accepts =>
        if !values.isEmpty then []
        else
          .asked ⟨.condition, matcher.bindingsIn contents, accepts (matcher.bindingsIn contents)⟩ ::
            if accepts (matcher.bindingsIn contents) then rowTurns matcher items values contents
            else []
      | .repetition _ _ => []
      | .sequence =>
        Turns.andThen (partTurns matcher item values contents)
          fun place => rowTurns matcher items place.left place.contents
      | _ =>
        match values with
        | [] => []
        | value :: values =>
          Turns.andThen (itemTurns matcher item value contents)
            (rowTurns matcher items values) := by
  rcases items with _ | ⟨⟨id, kind, parts⟩, items⟩
  · rfl
  · cases kind with
    | repetition minimum greed => cases leads
    | _ => rfl

/-! ## Single steps -/

theorem extends_openLists (matcher : Matcher α) (repetition : Nat) (state : SearchState α) :
    Extends state.slots (matcher.openLists repetition state).slots := by
  simp only [openLists]
  generalize matcher.openers.getD repetition [] = openers
  generalize state.slots = slots
  induction openers generalizing slots with
  | nil => exact .refl slots
  | cons opener openers induction =>
      exact (slots.extends_openList opener.1 opener.2).trans (induction _)

theorem entries_openLists (matcher : Matcher α) (repetition : Nat) (state : SearchState α) :
    (matcher.openLists repetition state).slots.entries =
      matcher.openContents repetition state.slots.entries := by
  simp only [openLists, openContents]
  generalize matcher.openers.getD repetition [] = openers
  generalize state.slots = slots
  induction openers generalizing slots with
  | nil => rfl
  | cons opener openers induction =>
      rw [List.foldl_cons, List.foldl_cons, induction, Slots.entries_openList]

theorem realizes_openLists (matcher : Matcher α) (repetition : Nat) {step : Step α}
    {goal : Contents α → Trial α (Ending α)} (realizes : Realizes Extends step goal) :
    Realizes Extends (fun state => step (matcher.openLists repetition state))
      fun contents => goal (matcher.openContents repetition contents) := by
  intro state
  have concludes := realizes (matcher.openLists repetition state)
  rw [entries_openLists] at concludes
  exact concludes.of_extends (matcher.extends_openLists repetition state) rfl rfl

theorem realizes_bind (id depth : Nat) (value : Value α) {next : Step α}
    {goal : Contents α → Trial α (Ending α)} (realizes : Realizes Same next goal) :
    Realizes Same
      (Step.orRollBack fun state =>
        next { state with slots := state.slots.bind id depth value })
      fun contents => goal (contents.put id depth (.scalar value)) := by
  apply Step.realizes_orRollBack
  intro state
  have concludes := realizes { state with slots := state.slots.bind id depth value }
  rw [Slots.entries_bind] at concludes
  refine Concludes.of_extends ?_ ?_ ?_ concludes.loosely
  · exact state.slots.extends_bind id depth value
  · rfl
  · rfl

theorem realizes_move {step : Step α} {goal : Contents α → Trial α (Ending α)}
    (realizes : Realizes Same step goal) : Realizes Same (fun state => step state.move) goal :=
  fun state => (realizes state.move).of_similar ⟨.refl _, rfl, rfl⟩

theorem realizes_repeatUnit (matcher : Matcher α) (repetition minimum : Nat) (greed : Greed)
    (values : List (Value α)) {next : Continuation α}
    {goal : List (Value α) → Contents α → Trial α (Ending α)}
    (realizes : ∀ left, Realizes Same (next left) (goal left))
    {unit : (List (Value α) → Continuation α → Step α) ⊕ (Bool × (Value α → Step α → Step α))}
    {turns : (List (Value α) → Contents α → Turns α (Place α)) ⊕
      (Value α → Contents α → Turns α (Contents α))}
    (realizesUnit : match unit, turns with
      | .inl row, .inl rowTurns => RealizesRow row rowTurns
      | .inr (branches, single), .inr itemTurns => RealizesItem single itemTurns ∧
        (branches = false → ∃ way : Value α → Contents α → Option (Contents α),
          ∀ value contents, itemTurns value contents = .ofOption (way value contents))
      | _, _ => False) :
    Realizes Same (matcher.repeatUnit repetition minimum greed unit values next) fun contents =>
      .explore (fun place => goal place.left place.contents)
        ((greed.counts minimum values.length).flatMap
          (Turns.repeated turns values (matcher.openContents repetition contents))) := by
  match unit, turns with
  | .inl row, .inl rowTurns =>
      apply Step.realizes_tryCounts
      intro count
      exact matcher.realizes_openLists repetition
        (Step.realizes_passes realizesUnit count values next goal realizes).loosely
  | .inr (true, single), .inr itemTurns =>
      apply Step.realizes_tryCounts
      intro count
      have steps := matcher.realizes_openLists repetition
        (Step.realizes_eachValue realizesUnit.1 (realizes (values.drop count))
          (values.take count)).loosely
      simpa [Turns.repeated, Trial.explore_andThen] using steps
  | .inr (false, single), .inr itemTurns =>
      rcases realizesUnit.2 rfl with ⟨way, oneWay⟩
      obtain rfl : itemTurns = fun value contents => .ofOption (way value contents) := by
        funext value contents
        exact oneWay value contents
      have unitWay : Step.OneWay (fun value => single value Step.accept) way :=
        .of_realizesItem realizesUnit.1 fun _ _ => rfl
      apply Step.realizes_orRollBack
      simp only [Turns.flatMap_counts_repeated]
      cases greed with
      | greedy =>
          exact matcher.realizes_openLists repetition
            (Step.realizes_flatGreedy unitWay realizes minimum values)
      | lazy =>
          exact matcher.realizes_openLists repetition
            (Step.realizes_flatLazy unitWay realizes minimum values)

/-! ## Items and rows -/

theorem SettledRow.of_mem [BEq α] {matcher : Matcher α} {items : List (Outline α)}
    (settled : matcher.SettledRow items) {item : Outline α} (member : item ∈ items) :
    matcher.Settled item := by
  induction items with
  | nil => cases member
  | cons first others induction =>
      rcases List.mem_cons.mp member with equal | later
      · exact equal ▸ settled.1
      · exact induction settled.2.2 later

theorem realizes_matchAll [BEq α] (matcher : Matcher α) (items : List (Outline α))
    (realizes : ∀ item ∈ items, RealizesItem (matcher.matchOne item) (matcher.itemTurns item)) :
    RealizesItem (matcher.matchAll items) (matcher.allTurns items) := by
  intro value next goal realizesNext
  induction items with
  | nil => simpa [matchAll, allTurns] using realizesNext
  | cons item items induction =>
      simp only [matchAll, allTurns, Trial.explore_andThen]
      exact realizes item List.mem_cons_self value _ _
        (induction fun other member => realizes other (List.mem_cons_of_mem _ member))

/-- Finding out whether a step has an outcome leaves no trace. -/
theorem isolated_eq {step : Step α} {turns : Contents α → Turns α (Contents α)}
    (realizes : Realizes Same step fun contents =>
      .explore (fun reached => .success (reached, none)) (turns contents))
    (state : SearchState α) :
    ∃ later, step.isolated state =
        (!(Turns.outcomes (turns state.slots.entries)).isEmpty, later) ∧
      SearchState.Similar
        { state with
          consultations :=
            (Turns.leading (turns state.slots.entries)).reverse ++ state.consultations } later := by
  have concludes := realizes state
  simp only [Trial.explore_success (fun reached => (reached, none))] at concludes
  rcases concludes with ⟨asked, conclusion⟩
  refine ⟨(step state).2.rollBack state.mark, ?_⟩
  cases reached : Turns.outcomes (turns state.slots.entries) with
  | nil =>
      simp only [reached, List.head?_nil, Option.map_none] at conclusion
      rcases conclusion with ⟨failed, same, found⟩
      exact ⟨by simp [Step.isolated, failed], (Slots.Extends.of_same same).undo_same.symm, found,
        asked⟩
  | cons outcome others =>
      simp only [reached, List.head?_cons, Option.map_some, Option.none_or] at conclusion
      rcases conclusion with ⟨matched, -, extended, found⟩
      exact ⟨by simp [Step.isolated, matched], extended.undo_same.symm, found, asked⟩

theorem matchAny_eq [BEq α] (matcher : Matcher α) (items : List (Outline α))
    (realizes : ∀ item ∈ items, RealizesItem (matcher.matchOne item) (matcher.itemTurns item))
    (value : Value α) (state : SearchState α) :
    ∃ later, matcher.matchAny items value state =
        (!(Turns.outcomes (matcher.anyTurns items value state.slots.entries)).isEmpty, later) ∧
      SearchState.Similar
        { state with
          consultations :=
            (Turns.leading (matcher.anyTurns items value state.slots.entries)).reverse ++
              state.consultations } later := by
  induction items generalizing state with
  | nil => exact ⟨state, rfl, .refl _⟩
  | cons item items induction =>
      have concludes := realizes item List.mem_cons_self value _ _ Step.realizes_accept
      rcases isolated_eq concludes state with ⟨later, ended, same, found, asked⟩
      simp only [matchAny, anyTurns, Turns.outcomes_append, Turns.leading_append, ended]
      cases reached : Turns.outcomes (matcher.itemTurns item value state.slots.entries) with
      | cons outcome others => exact ⟨later, by simp, same, found, by simpa using asked⟩
      | nil =>
          obtain ⟨last, ended', same', found', asked'⟩ :=
            induction (fun other member => realizes other (List.mem_cons_of_mem _ member)) later
          rw [← same.entries] at ended' asked'
          refine ⟨last, by simpa using ended', same.trans same', found'.trans found, ?_⟩
          rw [asked']
          simp [asked]

theorem realizes_verdict [BEq α] (matcher : Matcher α) {items : List (Outline α)}
    (realizes : ∀ item ∈ items, RealizesItem (matcher.matchOne item) (matcher.itemTurns item))
    (expected : Bool) (value : Value α) {next : Step α} {goal : Contents α → Trial α (Ending α)}
    (realizesNext : Realizes Same next goal) :
    Realizes Same
      (fun state =>
        let (matched, later) := matcher.matchAny items value state
        if matched = expected then next later else (false, later))
      fun contents =>
        .explore goal
          (Turns.verdict expected contents (matcher.anyTurns items value contents)) := by
  intro state
  rcases matcher.matchAny_eq items realizes value state with ⟨later, ended, similar⟩
  simp only [ended, Trial.explore_verdict]
  apply Concludes.afterAll
  apply Concludes.of_similar similar
  by_cases answer : (Turns.outcomes (matcher.anyTurns items value state.slots.entries)).isEmpty =
    expected
  · simpa [answer] using Concludes.failure (.refl later)
  · have opposite : (!(Turns.outcomes
        (matcher.anyTurns items value state.slots.entries)).isEmpty) = expected := by
      cases expected <;> simpa using answer
    rw [if_pos opposite, if_neg answer, similar.slots.entries]
    exact realizesNext later

theorem realizes_plain [BEq α] (matcher : Matcher α) {item : Outline α} {items : List (Outline α)}
    (leads : leadingRepetition? items = none)
    (realizesItem : RealizesItem (matcher.matchOne item) (matcher.itemTurns item))
    (realizesParts : RealizesRow (matcher.matchParts item) (matcher.partTurns item))
    (realizesItems : RealizesRow (matcher.matchRow items) (matcher.rowTurns items)) :
    RealizesRow (matcher.matchRow (item :: items)) (matcher.rowTurns (item :: items)) := by
  intro values next goal realizes state
  have others := fun left => realizesItems left next goal realizes
  rw [matchRow_plain matcher leads]
  simp only [rowTurns_plain matcher leads]
  have single : ∀ value values, Concludes Same state
      (.explore (fun place => goal place.left place.contents)
        (Turns.andThen (matcher.itemTurns item value state.slots.entries)
          (matcher.rowTurns items values)))
      (matcher.matchOne item value (matcher.matchRow items values next) state.move) := by
    intro value values
    rw [Trial.explore_andThen]
    exact realizes_move (realizesItem value _ _ (others values)) state
  cases kind : item.kind with
  | condition accepts =>
      cases values with
      | cons value values => exact .failure ⟨.refl _, rfl, rfl⟩
      | nil =>
          apply Concludes.after
          have bindings : matcher.snapshot state.move = matcher.bindingsIn state.slots.entries :=
            rfl
          rw [bindings]
          cases accepted : accepts (matcher.bindingsIn state.slots.entries) with
          | true =>
              simp only [SearchState.consult, accepted, if_true]
              exact (others [] _).of_similar ⟨.refl _, rfl, rfl⟩
          | false =>
              simp only [SearchState.consult, accepted]
              exact .failure ⟨.refl _, rfl, rfl⟩
  | repetition minimum greed => exact .failure ⟨.refl _, rfl, rfl⟩
  | sequence =>
      simp only [Trial.explore_andThen]
      exact realizes_move (realizesParts values _ _ others) state
  | _ =>
      cases values with
      | nil => exact .failure ⟨.refl _, rfl, rfl⟩
      | cons value values => exact single value values

theorem realizes_node [BEq α] (matcher : Matcher α) (id : Nat) (kind : NodeKind α)
    {children : List (Outline α)}
    (realizesChildren : ∀ child ∈ children,
      RealizesItem (matcher.matchOne child) (matcher.itemTurns child))
    (realizesRow : RealizesRow (matcher.matchRow children) (matcher.rowTurns children)) :
    RealizesItem (matcher.matchOne (.node id kind children))
      (matcher.itemTurns (.node id kind children)) := by
  intro value next goal realizes
  have failure : Realizes Same (fun state => (false, state)) fun _ : Contents α => .failure :=
    fun state => .failure (.refl state)
  have parts (values : List (Value α)) : Realizes Same
      (matcher.matchRow children values (Step.exhausted next))
      fun contents => .explore goal (.exhausted (matcher.rowTurns children values contents)) := by
    simp only [Turns.explore_exhausted]
    exact realizesRow values _ _ (Step.realizes_exhausted realizes)
  cases kind with
  | test test =>
      by_cases accepted : test.accepts value = true
      · simpa [matchOne, itemTurns, accepted] using realizes_move realizes
      · simpa [matchOne, itemTurns, accepted] using realizes_move failure
  | wildcard => simpa [matchOne, itemTurns] using realizes_move realizes
  | bind name =>
      simpa [matchOne, itemTurns] using
        realizes_move (realizes_bind id (matcher.depth id) value realizes)
  | deconstruct shape =>
      cases known : matcher.decomposer? id with
      | none =>
          simp only [matchOne, itemTurns, known]
          exact fun state => .failure ⟨.refl _, rfl, rfl⟩
      | some decomposer =>
          cases taken : decomposer value with
          | none => simpa [matchOne, itemTurns, known, taken] using realizes_move failure
          | some values =>
              simpa [matchOne, itemTurns, known, taken] using realizes_move (parts values)
  | keyed shape keys =>
      cases taken : shape.lookup? keys value with
      | none => simpa [matchOne, itemTurns, taken] using realizes_move failure
      | some values => simpa [matchOne, itemTurns, taken] using realizes_move (parts values)
  | and =>
      exact realizes_move
        (matcher.realizes_matchAll children realizesChildren value _ _ realizes)
  | or =>
      intro state
      have verdict := realizes_move
        (matcher.realizes_verdict realizesChildren true value realizes) state
      simp only [matchOne, itemTurns] at verdict ⊢
      rcases ended : matcher.matchAny children value state.move with ⟨matched, later⟩
      rw [ended] at verdict
      cases matched <;> exact verdict
  | not =>
      intro state
      have verdict := realizes_move
        (matcher.realizes_verdict realizesChildren false value realizes) state
      simp only [matchOne, itemTurns] at verdict ⊢
      rcases ended : matcher.matchAny children value state.move with ⟨matched, later⟩
      rw [ended] at verdict
      cases matched <;> exact verdict
  | sequence => exact fun state => .failure ⟨.refl _, rfl, rfl⟩
  | repetition minimum greed => exact fun state => .failure ⟨.refl _, rfl, rfl⟩
  | condition accepts => exact fun state => .failure ⟨.refl _, rfl, rfl⟩

theorem realizes_items [BEq α] (matcher : Matcher α) :
    Outline.Inductive
      (fun item => matcher.Settled item →
        RealizesItem (matcher.matchOne item) (matcher.itemTurns item) ∧
          RealizesRow (matcher.matchParts item) (matcher.partTurns item))
      (fun items => matcher.SettledRow items →
        RealizesRow (matcher.matchRow items) (matcher.rowTurns items)) where
  nil := by
    intro _ values next goal realizes
    simpa [matchRow, rowTurns] using realizes values
  repeated := by
    intro unit repetition minimum greed parts items ofUnit ofItems settled
    rcases settled with ⟨settledUnit, oneWay, -, -, settledItems⟩
    rcases ofUnit settledUnit with ⟨realizesItem, realizesParts⟩
    intro values next goal realizes
    have others := fun left => ofItems settledItems left next goal realizes
    simp only [matchRow, rowTurns, Trial.explore_andThen]
    apply realizes_move
    cases sequence : unit.kind.isSequence with
    | true => exact matcher.realizes_repeatUnit repetition minimum greed values others realizesParts
    | false =>
        exact matcher.realizes_repeatUnit repetition minimum greed values others
          ⟨realizesItem, oneWay rfl sequence⟩
  plain := by
    intro item items leads ofItem ofItems settled
    rcases settled with ⟨settledItem, -, settledItems⟩
    rcases ofItem settledItem with ⟨realizesItem, realizesParts⟩
    exact matcher.realizes_plain leads realizesItem realizesParts (ofItems settledItems)
  node := by
    intro id kind children ofChildren ofRow settled
    have realizesRow : RealizesRow (matcher.matchRow children) (matcher.rowTurns children) :=
      ofRow settled
    exact ⟨matcher.realizes_node id kind
      (fun child member => (ofChildren child member (settled.of_mem member)).1) realizesRow,
      realizesRow⟩

/-! ## A whole search -/

/-- What is left to do when all items have matched: compare repeated names, ask the guard. -/
def finalTrial (matcher : Matcher α) [BEq α] (guard : Option (Bindings α → Bool))
    (contents : Contents α) : Trial α (Bindings α) :=
  if !matcher.namesAgree ⟨contents, #[], 0⟩ then .failure
  else
    let bindings := matcher.bindingsIn contents
    match guard with
    | none => .success bindings
    | some accepts =>
      .after ⟨.guard, bindings, accepts bindings⟩
        (if accepts bindings then .success bindings else .failure)

def searchTrial [BEq α] (matcher : Matcher α) (guard : Option (Bindings α → Bool))
    (value : Value α) : Trial α (Bindings α) :=
  .explore (matcher.finalTrial guard)
    (.exhausted (matcher.rowTurns [matcher.outline] [value]
      (Array.replicate matcher.tree.size none)))

theorem realizes_finish [BEq α] (matcher : Matcher α) (guard : Option (Bindings α → Bool)) :
    Realizes Same (matcher.finish guard) fun contents =>
      (matcher.finalTrial guard contents).map fun bindings => (contents, some bindings) := by
  intro state
  have agree : matcher.namesAgree ⟨state.slots.entries, #[], 0⟩ = matcher.namesAgree state.slots :=
    rfl
  have bindings : matcher.bindingsIn state.slots.entries = matcher.snapshot state := rfl
  simp only [finish, finalTrial, agree, bindings]
  cases matcher.namesAgree state.slots with
  | false => exact .failure (.refl state)
  | true =>
      cases guard with
      | none => exact ⟨rfl, rfl, rfl, .refl _, rfl⟩
      | some accepts =>
          cases accepted : accepts (matcher.snapshot state) with
          | true =>
              simp only [SearchState.consult, accepted]
              exact ⟨rfl, rfl, rfl, .refl _, rfl⟩
          | false =>
              simp only [SearchState.consult, accepted]
              exact ⟨rfl, rfl, .refl _, rfl⟩

/-- A search carries out its trial, starting with blank slots. -/
theorem search_concludes [BEq α] {matcher : Matcher α} (settled : matcher.Settled matcher.outline)
    (guard : Option (Bindings α → Bool)) (value : Value α) :
    Concludes Same (SearchState.start matcher.tree.size)
      (.explore (fun contents =>
          (matcher.finalTrial guard contents).map fun bindings => (contents, some bindings))
        (.exhausted (matcher.rowTurns [matcher.outline] [value]
          (Array.replicate matcher.tree.size none))))
      (matcher.search guard value) := by
  have settledRow : matcher.SettledRow [matcher.outline] :=
    ⟨settled, fun leads => absurd leads (by simp [leadingRepetition?]), trivial⟩
  rw [Turns.explore_exhausted]
  exact matcher.realizes_items.row [matcher.outline] settledRow [value] _ _
    (Step.realizes_exhausted (matcher.realizes_finish guard))
    (SearchState.start matcher.tree.size)

/-- A search ends with the result of its trial, and asks what is asked in it. -/
theorem search_eq [BEq α] {matcher : Matcher α} (settled : matcher.Settled matcher.outline)
    (guard : Option (Bindings α → Bool)) (value : Value α) :
    bindingsOf (matcher.search guard value) = (matcher.searchTrial guard value).result ∧
      consultationsOf (matcher.search guard value) =
        (matcher.searchTrial guard value).consultations := by
  have concludes := search_concludes settled guard value
  generalize ran : Trial.explore _ _ = trial at concludes
  have final : trial.map Prod.snd = (matcher.searchTrial guard value).map some := by
    rw [← ran, Trial.map_explore, searchTrial, Trial.map_explore]
    congr 1
    funext contents
    simp [Trial.map, Function.comp_def]
  rcases concludes with ⟨asked, conclusion⟩
  have questions := congrArg Trial.consultations final
  have results := congrArg Trial.result final
  simp only [Trial.map] at questions results
  refine ⟨?_, by simp [consultationsOf, asked, SearchState.start, questions]⟩
  rcases ended : matcher.search guard value with ⟨matched, later⟩
  rw [ended] at conclusion
  cases result : trial.result with
  | none =>
      simp only [result, Option.map_none] at conclusion results
      rcases conclusion with ⟨rfl, -⟩
      rw [bindingsOf, Option.map_eq_none_iff.mp results.symm]
  | some ending =>
      rcases ending with ⟨contents, answer⟩
      simp only [result, Option.map_some] at conclusion results
      rcases conclusion with ⟨rfl, -, -, found⟩
      rcases Option.map_eq_some_iff.mp results.symm with ⟨bindings, here, rfl⟩
      rw [bindingsOf, found, here]
      rfl

end Destructure.Matcher
