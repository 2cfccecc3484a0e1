import Destructure.Proofs.Matching.Budget
import Destructure.Proofs.Matching.Realization

/-!
The search ends. Every call ends within a budget, provided that the pending work does so with
whatever values it is taken up. That is shown by induction on the pattern, along the operands, the
values, and the passes through a group that are still due; neither the values nor the pending work
need shrink. As to what the calls do, it is what the search does.
-/

namespace Destructure

variable {α : Type}

open Attempt (Settles settles_step settles_succeed settles_fail settles_refuse settles_given)
open Outline (leadingRepetition?)

theorem Step.moves_exhausted (next : Step α)
    (still : ∀ state, (next state).2.moves = state.moves) (left : List (Value α))
    (state : SearchState α) : (exhausted next left state).2.moves = state.moves := by
  rw [exhausted]
  split
  · exact still state
  · rfl

namespace Matcher

theorem attemptChain_plain (matcher : Matcher α) (call : Task α → Attempt α) {item : Outline α}
    {items : List (Outline α)} (leads : leadingRepetition? items = none) (values : List (Value α))
    (pending : Pending α) :
    matcher.attemptChain call (item :: items) values pending = .after SearchState.move
      (match item.kind with
      | .condition accepts =>
        if !values.isEmpty then .fail
        else
          .branch (.step fun state => state.consult .condition accepts (matcher.snapshot state))
            (call (.chain items values pending)) .fail
      | .repetition _ _ => .step (SearchState.refuse · (.strayRepetition item.id))
      | .sequence => call (.chain item.children values (.next items pending))
      | _ =>
        match values with
        | [] => .fail
        | value :: values => call (.one item value values (.next items pending))) := by
  rcases items with _ | ⟨⟨id, kind, parts⟩, items⟩
  · rfl
  · cases kind with
    | repetition minimum greed => cases leads
    | _ => rfl

theorem settles_consult (matcher : Matcher α) (accepts : Bindings α → Bool) :
    Settles (fun (_ : Option (Bindings α → Bool)) _ =>
        .step fun state => state.consult .condition accepts (matcher.snapshot state))
      fun _ state => state.consult .condition accepts (matcher.snapshot state) :=
  settles_step fun _ _ => rfl

variable [BEq α]

def continuation (matcher : Matcher α) (guard : Option (Bindings α → Bool)) :
    Pending α → Continuation α
  | .done => Step.exhausted (matcher.finish guard)
  | .accept => Step.exhausted Step.accept
  | .next items up => fun values => matcher.matchRow items values (continuation matcher guard up)
  | .close rest up => Step.exhausted (continuation matcher guard up rest)
  | .all operands value up => fun left =>
    matcher.matchAll operands value (continuation matcher guard up left)
  | .each unit rest up => fun values =>
    Step.eachValue (matcher.matchOne unit) values (continuation matcher guard up rest)
  | .passes group count items up => fun values =>
    Step.passes (matcher.matchParts group) count values fun left =>
      matcher.matchRow items left (continuation matcher guard up)

def stepOf (matcher : Matcher α) (guard : Option (Bindings α → Bool)) : Task α → Step α
  | .resume pending values => matcher.continuation guard pending values
  | .chain items values pending =>
    matcher.matchRow items values (matcher.continuation guard pending)
  | .one item value rest pending =>
    matcher.matchOne item value (matcher.continuation guard pending rest)
  | .all operands value rest pending =>
    matcher.matchAll operands value (matcher.continuation guard pending rest)
  | .each unit values rest pending =>
    Step.eachValue (matcher.matchOne unit) values (matcher.continuation guard pending rest)
  | .passes group count values items pending =>
    Step.passes (matcher.matchParts group) count values fun left =>
      matcher.matchRow items left (matcher.continuation guard pending)

/-- A call with the task ends within some budget, and does what the step does. -/
def Finishes (matcher : Matcher α) (task : Task α) : Prop :=
  Settles (fun guard depth => matcher.call guard depth task) fun guard => matcher.stepOf guard task

variable {matcher : Matcher α}

theorem finishes_of_attempt {task : Task α} {step : Option (Bindings α → Bool) → Step α}
    (settles : Settles (fun guard depth => matcher.attempt guard (matcher.call guard depth) task)
      step)
    (equal : ∀ guard state, matcher.stepOf guard task state = step guard state) :
    matcher.Finishes task := by
  rcases settles with ⟨cost, ends⟩
  refine ⟨cost + 1, fun guard depth within state => ?_⟩
  cases depth with
  | zero => cases within
  | succ depth =>
      rcases ends guard depth (Nat.le_of_succ_le_succ within) state with ⟨ends, moves⟩
      simp only [equal]
      refine ⟨fun budget within => ?_, Nat.le_succ_of_le moves⟩
      cases budget with
      | zero => cases within
      | succ budget =>
          rcases ends budget (Nat.le_of_succ_le_succ within) with ⟨left, ended, spent⟩
          exact ⟨left, ended, Nat.succ_le_succ spent⟩

/-! ## Pending work -/

def Resumes (matcher : Matcher α) (pending : Pending α) : Prop :=
  ∀ values, matcher.Finishes (.resume pending values)

theorem moves_finish (guard : Option (Bindings α → Bool)) (state : SearchState α) :
    (matcher.finish guard state).2.moves = state.moves := by
  rw [finish]
  split
  · rfl
  · cases guard with
    | none => rfl
    | some accepts =>
        cases accepted : accepts (matcher.snapshot state) <;>
          simp only [SearchState.consult, accepted]

theorem resumes_done : matcher.Resumes .done := by
  intro values
  have still := fun guard => Step.moves_exhausted _ (matcher.moves_finish guard) values
  exact finishes_of_attempt (settles_step still) fun _ _ => rfl

theorem resumes_accept : matcher.Resumes .accept := by
  intro values
  have still := Step.moves_exhausted (α := α) Step.accept (fun _ => rfl) values
  exact finishes_of_attempt (settles_step fun _ => still) fun _ _ => rfl

theorem resumes_close {rest : List (Value α)} {up : Pending α}
    (finishes : matcher.Finishes (.resume up rest)) : matcher.Resumes (.close rest up) := by
  intro values
  cases values with
  | nil => exact finishes_of_attempt finishes fun _ _ => rfl
  | cons value values => exact finishes_of_attempt settles_fail fun _ _ => rfl

/-! ## Items -/

def FinishesItem (matcher : Matcher α) (item : Outline α) : Prop :=
  ∀ value rest pending, matcher.Finishes (.resume pending rest) →
    matcher.Finishes (.one item value rest pending)

def FinishesRow (matcher : Matcher α) (items : List (Outline α)) : Prop :=
  ∀ values pending, matcher.Resumes pending → matcher.Finishes (.chain items values pending)

theorem FinishesRow.resumes {items : List (Outline α)} (finishesRow : matcher.FinishesRow items)
    {up : Pending α} (resumes : matcher.Resumes up) : matcher.Resumes (.next items up) :=
  fun values => finishes_of_attempt (finishesRow values up resumes) fun _ _ => rfl

/-- Along the values. -/
theorem FinishesItem.each {unit : Outline α} (finishesItem : matcher.FinishesItem unit)
    (values : List (Value α)) {rest : List (Value α)} {pending : Pending α}
    (finishes : matcher.Finishes (.resume pending rest)) :
    matcher.Finishes (.each unit values rest pending) := by
  induction values with
  | nil => exact finishes_of_attempt finishes fun _ _ => rfl
  | cons value values induction =>
      have onward : matcher.Finishes (.resume (.each unit rest pending) values) :=
        finishes_of_attempt induction fun _ _ => rfl
      exact finishes_of_attempt (finishesItem value values _ onward) fun _ _ => rfl

theorem matchParts_eq (matcher : Matcher α) (item : Outline α) :
    matcher.matchParts item = matcher.matchRow item.children := by
  cases item
  rfl

/-- Along the passes that are still due. The values need not get fewer. -/
theorem FinishesRow.passes {group : Outline α} (finishesParts : matcher.FinishesRow group.children)
    {items : List (Outline α)} (finishesRow : matcher.FinishesRow items) {pending : Pending α}
    (resumes : matcher.Resumes pending) (count : Nat) (values : List (Value α)) :
    matcher.Finishes (.passes group count values items pending) := by
  induction count generalizing values with
  | zero => exact finishes_of_attempt (finishesRow values pending resumes) fun _ _ => rfl
  | succ count induction =>
      have again : matcher.Resumes (.passes group count items pending) :=
        fun values => finishes_of_attempt (induction values) fun _ _ => rfl
      refine finishes_of_attempt (finishesParts values _ again) fun guard state => ?_
      simp only [stepOf, Step.passes, matchParts_eq, continuation]

section

variable {operands : List (Outline α)}
variable (finishesItems : ∀ operand ∈ operands, matcher.FinishesItem operand)
include finishesItems

theorem finishes_all (value : Value α) {rest : List (Value α)} {pending : Pending α}
    (finishes : matcher.Finishes (.resume pending rest)) :
    matcher.Finishes (.all operands value rest pending) := by
  induction operands with
  | nil => exact finishes_of_attempt finishes fun _ _ => rfl
  | cons operand operands induction =>
      rcases List.forall_mem_cons.mp finishesItems with ⟨finishesItem, others⟩
      have onward : matcher.Finishes (.resume (.all operands value pending) rest) :=
        finishes_of_attempt (induction others) fun _ _ => rfl
      exact finishes_of_attempt (finishesItem value rest _ onward) fun _ _ => rfl

theorem settles_any (value : Value α) :
    Settles (fun guard depth =>
        .any (fun item => matcher.call guard depth (.one item value [] .accept)) operands)
      fun _ => matcher.matchAny operands value := by
  induction operands with
  | nil => exact settles_fail
  | cons operand operands induction =>
      rcases List.forall_mem_cons.mp finishesItems with ⟨finishesItem, others⟩
      have alone := (finishesItem value [] .accept (resumes_accept [])).isolated
      exact alone.branch settles_succeed (induction others)

end

theorem settles_repetition {unit : Outline α} (finishesItem : matcher.FinishesItem unit)
    (finishesParts : matcher.FinishesRow unit.children) {items : List (Outline α)}
    (finishesRow : matcher.FinishesRow items) (repetition minimum : Nat) (greed : Greed)
    (values : List (Value α)) {pending : Pending α} (resumes : matcher.Resumes pending) :
    Settles (fun guard depth => matcher.attemptRepetition (matcher.call guard depth) unit repetition
        minimum greed values items pending)
      fun guard => matcher.repeatUnit repetition minimum greed
        (if unit.kind.isSequence then .inl (matcher.matchParts unit)
        else .inr (matcher.branches unit.id, matcher.matchOne unit)) values
        fun left => matcher.matchRow items left (matcher.continuation guard pending) := by
  have still (state : SearchState α) : (matcher.openLists repetition state).moves ≤
      state.moves + 1 := Nat.le_succ _
  have behind := finishesRow.resumes resumes
  cases sequence : unit.kind.isSequence with
  | true =>
      simp only [attemptRepetition, sequence, if_true]
      exact Attempt.settles_tryCounts (fun count =>
        (finishesParts.passes finishesRow resumes count values).after still) _
  | false =>
      cases branching : matcher.branches unit.id with
      | true =>
          simp only [attemptRepetition, sequence, branching, if_true, Bool.false_eq_true, if_false]
          exact Attempt.settles_tryCounts (fun count =>
            (finishesItem.each (values.take count) (behind (values.drop count))).after still) _
      | false =>
          simp only [attemptRepetition, sequence, branching, Bool.false_eq_true, if_false]
          have alone := fun value => finishesItem value [] .accept (resumes_accept [])
          cases greed with
          | greedy =>
              have along := Attempt.settles_flatGreedy alone behind minimum values
              exact (along.after still).orRollBack
          | lazy =>
              have along := Attempt.settles_flatLazy alone behind minimum values
              exact (along.after still).orRollBack

theorem finishesRow_plain {item : Outline α} {items : List (Outline α)}
    (leads : leadingRepetition? items = none) (finishesItem : matcher.FinishesItem item)
    (finishesParts : matcher.FinishesRow item.children) (finishesRow : matcher.FinishesRow items) :
    matcher.FinishesRow (item :: items) := by
  intro values pending resumes
  have moved (state : SearchState α) : state.move.moves ≤ state.moves + 1 := Nat.le_refl _
  have behind := finishesRow.resumes resumes
  refine finishes_of_attempt (Settles.of_eq ?_
    (fun guard depth => matcher.attemptChain_plain (matcher.call guard depth) leads values pending)
    (fun guard state => matcher.matchRow_plain leads values _ state)) fun _ _ => rfl
  cases item.kind with
  | condition accepts =>
      cases values with
      | cons value values => exact settles_fail.after moved
      | nil =>
          have asked := matcher.settles_consult accepts
          exact (asked.branch (finishesRow [] pending resumes) settles_fail).after moved
  | repetition minimum greed => exact (settles_refuse _).after moved
  | sequence =>
      rw [matchParts_eq]
      exact Settles.after (finishesParts values _ behind) moved
  | _ =>
      cases values with
      | nil => exact settles_fail.after moved
      | cons value values => exact Settles.after (finishesItem value values _ (behind values)) moved

theorem finishesItem_node (id : Nat) (kind : NodeKind α) {children : List (Outline α)}
    (finishesChildren : ∀ child ∈ children, matcher.FinishesItem child)
    (finishesRow : matcher.FinishesRow children) :
    matcher.FinishesItem (.node id kind children) := by
  intro value rest pending finishes
  have moved (state : SearchState α) : state.move.moves ≤ state.moves + 1 := Nat.le_refl _
  have parts := fun values => finishesRow values _ (resumes_close finishes)
  have verdict := settles_any finishesChildren value
  cases kind with
  | test test =>
      exact finishes_of_attempt ((Settles.when finishes _).after moved) fun _ _ => rfl
  | wildcard => exact finishes_of_attempt (Settles.after finishes moved) fun _ _ => rfl
  | bind name =>
      refine finishes_of_attempt ((Settles.after finishes ?_).orRollBack.after moved) fun _ _ => rfl
      exact fun _ => Nat.le_succ _
  | deconstruct shape =>
      cases known : matcher.decomposer? id with
      | none =>
          refine finishes_of_attempt (((settles_refuse (.missingDecomposer id)).after moved).of_eq
            (fun _ _ => ?_) fun _ _ => rfl) fun _ _ => ?_
          · simp only [attempt, attemptOne, known]
          · simp only [stepOf, matchOne, known]
      | some decomposer =>
          refine finishes_of_attempt (((settles_given parts (decomposer value)).after moved).of_eq
            (fun _ _ => ?_) fun _ _ => rfl) fun _ _ => ?_
          · simp only [attempt, attemptOne, known]
          · simp only [stepOf, matchOne, known]
            cases decomposer value <;> rfl
  | keyed shape keys =>
      refine finishes_of_attempt ((settles_given parts (shape.lookup? keys value)).after moved)
        fun _ _ => ?_
      simp only [stepOf, matchOne]
      cases shape.lookup? keys value <;> rfl
  | and =>
      exact finishes_of_attempt (Settles.after (finishes_all finishesChildren value finishes) moved)
        fun _ _ => rfl
  | or =>
      exact finishes_of_attempt ((verdict.branch finishes settles_fail).after moved) fun _ _ => rfl
  | not =>
      exact finishes_of_attempt ((verdict.branch settles_fail finishes).after moved) fun _ _ => rfl
  | sequence => exact finishes_of_attempt ((settles_refuse _).after moved) fun _ _ => rfl
  | repetition minimum greed =>
      exact finishes_of_attempt ((settles_refuse _).after moved) fun _ _ => rfl
  | condition accepts => exact finishes_of_attempt ((settles_refuse _).after moved) fun _ _ => rfl

theorem finishes_items (matcher : Matcher α) : Outline.Inductive
    (fun item => matcher.FinishesItem item ∧ matcher.FinishesRow item.children)
    matcher.FinishesRow where
  nil values _ resumes := finishes_of_attempt (resumes values) fun _ _ => rfl
  repeated _ repetition minimum greed _ _ ofUnit ofItems values _ resumes :=
    finishes_of_attempt ((settles_repetition ofUnit.1 ofUnit.2 ofItems repetition minimum greed
      values resumes).after fun _ => Nat.le_refl _) fun _ _ => rfl
  plain _ _ leads ofItem ofItems := finishesRow_plain leads ofItem.1 ofItem.2 ofItems
  node id kind _ ofChildren ofRow :=
    ⟨finishesItem_node id kind (fun child member => (ofChildren child member).1) ofRow, ofRow⟩

/-- All pending work ends, since each piece of it ends if the next one does. -/
theorem resumes (matcher : Matcher α) (pending : Pending α) : matcher.Resumes pending := by
  have ofItem (item : Outline α) := (matcher.finishes_items.item item).1
  induction pending with
  | done => exact resumes_done
  | accept => exact resumes_accept
  | next items up induction => exact (matcher.finishes_items.row items).resumes induction
  | close rest up induction => exact resumes_close (induction rest)
  | all operands value up induction =>
      exact fun left => finishes_of_attempt
        (finishes_all (fun operand _ => ofItem operand) value (induction left)) fun _ _ => rfl
  | each unit rest up induction =>
      exact fun values => finishes_of_attempt
        ((ofItem unit).each values (induction rest)) fun _ _ => rfl
  | passes group count items up induction =>
      have finishesParts := (matcher.finishes_items.item group).2
      exact fun values => finishes_of_attempt
        (finishesParts.passes (matcher.finishes_items.row items) induction count values)
        fun _ _ => rfl

/-- Every call ends, whatever it is asked to do. -/
theorem finishes (matcher : Matcher α) (task : Task α) : matcher.Finishes task := by
  have ofItem (item : Outline α) := matcher.finishes_items.item item
  have ofRow := matcher.finishes_items.row
  cases task with
  | resume pending values => exact matcher.resumes pending values
  | chain items values pending => exact ofRow items values pending (matcher.resumes pending)
  | one item value rest pending =>
      exact (ofItem item).1 value rest pending (matcher.resumes pending rest)
  | all operands value rest pending =>
      exact finishes_all (fun operand _ => (ofItem operand).1) value (matcher.resumes pending rest)
  | each unit values rest pending =>
      exact (ofItem unit).1.each values (matcher.resumes pending rest)
  | passes group count values items pending =>
      exact (ofItem group).2.passes (ofRow items) (matcher.resumes pending) count values

/-! ## Whole searches -/

theorem exists_searchWithin (matcher : Matcher α) (value : Value α) : ∃ budget, ∀ guard more,
    budget ≤ more → matcher.searchWithin more guard value = some (matcher.search guard value) ∧
      (matcher.search guard value).2.moves ≤ budget := by
  rcases matcher.finishes (.chain [matcher.outline] [value] .done) with ⟨cost, ends⟩
  refine ⟨cost, fun guard more within => ?_⟩
  rcases ends guard more within (SearchState.start matcher.tree.size) with ⟨ends, moves⟩
  rcases ends more within with ⟨left, ended, -⟩
  refine ⟨?_, Nat.le_trans moves (Nat.le_of_eq (Nat.zero_add _))⟩
  exact congrArg (Option.map fun ended => (ended.1, ended.2.state)) ended

/-- Matching a value ends, with and without a guard. To a pattern, a registry and a value there is
a budget within which every search for the pattern gives its answer, whatever the options and the
guard, and which bounds the items that the search tries. -/
theorem search_ends_within_budget (pattern : Pattern α) (registry : Registry α) (value : Value α) :
    ∃ budget, ∀ options matcher, compile pattern registry options = .ok matcher →
      (∀ more, budget ≤ more →
        (∀ guard, matcher.searchWithin more guard value = some (matcher.search guard value)) ∧
        matcher.matchesWithin more value = some (matcher.matches? value) ∧
        ∀ guard, matcher.matchGuardedWithin more guard value =
          some (matcher.matchGuarded? guard value)) ∧
      ∀ guard, (matcher.search guard value).2.moves ≤ budget := by
  have forOptions (options : Options) : ∃ budget, ∀ matcher,
      compile pattern registry options = .ok matcher → ∀ guard more, budget ≤ more →
        matcher.searchWithin more guard value = some (matcher.search guard value) ∧
          (matcher.search guard value).2.moves ≤ budget := by
    cases compiled : compile pattern registry options with
    | error error => exact ⟨0, fun _ impossible => by cases impossible⟩
    | ok matcher =>
        rcases matcher.exists_searchWithin value with ⟨budget, ends⟩
        exact ⟨budget, fun _ same => Except.ok.inj same ▸ ends⟩
  choose budgets ends using forOptions
  -- There are but few options, so one budget does for all of them.
  let budget := budgets ⟨.rejected, .greedy⟩ + budgets ⟨.rejected, .lazy⟩ +
    budgets ⟨.equal, .greedy⟩ + budgets ⟨.equal, .lazy⟩
  have enough (options : Options) : budgets options ≤ budget := by
    rcases options with ⟨_ | _, _ | _⟩ <;> omega
  refine ⟨budget, fun options matcher compiled => ⟨fun more within => ?_, fun guard => ?_⟩⟩
  · have answers (guard : Option (Bindings α → Bool)) :=
      (ends options matcher compiled guard more (Nat.le_trans (enough options) within)).1
    refine ⟨answers, ?_, fun guard => ?_⟩
    · rw [matchesWithin, answers]
      rfl
    · rw [matchGuardedWithin, answers]
      rfl
  · exact Nat.le_trans (ends options matcher compiled guard _ (Nat.le_refl _)).2 (enough options)

/-- Groups that can match no values at all, at least so many times, and a decomposer that returns
the value itself twice. -/
theorem empty_passes_end : ∃ matcher : Matcher Nat,
    compile (.deconstruct (.named "Twice")
      [.sequence [.sequence [.bind "a", .repetition 0 none], .repetition 3 none],
        .repetition 2 none])
      (Registry.standard.register "Twice" fun value => some [value, value]) {} = .ok matcher ∧
    matcher.matchesWithin 0 .nil = none ∧
    ∃ budget, matcher.matchesWithin budget .nil = some (matcher.matches? .nil) ∧
      ∀ guard, matcher.matchGuardedWithin budget guard .nil =
        some (matcher.matchGuarded? guard .nil) := by
  obtain ⟨matcher, compiled⟩ : ∃ matcher : Matcher Nat,
      compile (.deconstruct (.named "Twice")
        [.sequence [.sequence [.bind "a", .repetition 0 none], .repetition 3 none],
          .repetition 2 none])
        (Registry.standard.register "Twice" fun value => some [value, value]) {} =
          .ok matcher := ⟨_, rfl⟩
  rcases search_ends_within_budget (α := Nat) (.deconstruct (.named "Twice")
      [.sequence [.sequence [.bind "a", .repetition 0 none], .repetition 3 none],
        .repetition 2 none])
    (Registry.standard.register "Twice" fun value => some [value, value]) .nil with ⟨budget, ends⟩
  rcases ends _ matcher compiled with ⟨answers, -⟩
  rcases answers budget (Nat.le_refl _) with ⟨-, plain, guarded⟩
  exact ⟨matcher, compiled, rfl, budget, plain, guarded⟩

end Matcher

end Destructure
