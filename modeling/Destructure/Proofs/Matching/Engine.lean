import Destructure.Matching.Search

/-!
The search by calls. What is to happen after a call is written down as pending work, and a task is
carried out by calls with further tasks. Apart from loops along counts, operands or values, nothing
here recurs on the pattern, the values or the pending work: a group is gone through again with the
same items, and pending work is taken up with whatever values there are. All that bounds the calls
is a budget, of which each call takes one unit. When it is spent there is no answer.
-/

namespace Destructure

variable {α : Type}

structure Progress (α : Type) where
  state : SearchState α
  budget : Nat

abbrev Attempt (α : Type) := Progress α → Option (Bool × Progress α)

namespace Attempt

def step (step : Step α) : Attempt α := fun progress =>
  let (matched, state) := step progress.state
  some (matched, { progress with state := state })

def succeed : Attempt α := step Step.accept

def fail : Attempt α := step fun state => (false, state)

def after (change : SearchState α → SearchState α) (attempt : Attempt α) : Attempt α :=
  fun progress => attempt { progress with state := change progress.state }

def branch (first yes no : Attempt α) : Attempt α := fun progress =>
  match first progress with
  | none => none
  | some (true, progress) => yes progress
  | some (false, progress) => no progress

def orRollBack (attempt : Attempt α) : Attempt α := fun progress =>
  let mark := progress.state.mark
  branch attempt succeed (after (SearchState.rollBack · mark) fail) progress

def isolated (attempt : Attempt α) : Attempt α := fun progress =>
  let mark := progress.state.mark
  branch attempt (after (SearchState.rollBack · mark) succeed)
    (after (SearchState.rollBack · mark) fail) progress

def tryCounts (attempt : Nat → Attempt α) : List Nat → Attempt α
  | [] => fail
  | count :: counts => branch (orRollBack (attempt count)) succeed (tryCounts attempt counts)

def any (attempt : Outline α → Attempt α) : List (Outline α) → Attempt α
  | [] => fail
  | item :: items => branch (isolated (attempt item)) succeed (any attempt items)

def stretch (unit : Value α → Attempt α) :
    List (Value α) → List (Step.Rest α) → Progress α → Option (List (Step.Rest α) × Progress α)
  | [], reached, progress => some (reached, progress)
  | value :: values, reached, progress =>
    match unit value progress with
    | none => none
    | some (true, progress) =>
      stretch unit values ((progress.state.mark, values) :: reached) progress
    | some (false, progress) => some (reached, progress)

def retreat (next : List (Value α) → Attempt α) : List (Step.Rest α) → Attempt α
  | [] => fail
  | (mark, left) :: rests =>
    branch (after (SearchState.rollBack · mark) (next left)) succeed (retreat next rests)

def flatGreedy (unit : Value α → Attempt α) (minimum : Nat) (values : List (Value α))
    (next : List (Value α) → Attempt α) : Attempt α := fun progress =>
  match stretch unit values [(progress.state.mark, values)] progress with
  | none => none
  | some (reached, progress) => retreat next (reached.take (reached.length - minimum)) progress

def flatLazy (unit : Value α → Attempt α) (next : List (Value α) → Attempt α) :
    (required : Nat) → List (Value α) → Attempt α
  | required, values =>
    branch (if required = 0 then orRollBack (next values) else fail) succeed
      (match values with
        | [] => fail
        | value :: values => branch (unit value) (flatLazy unit next (required - 1) values) fail)
  termination_by structural _ values => values

end Attempt

inductive Pending (α : Type) where
  /-- The whole pattern has matched. -/
  | done
  /-- An item that is tried by itself has matched. -/
  | accept
  | next (items : List (Outline α)) (up : Pending α)
  /-- The parts of a value have matched; go on behind the value. -/
  | close (rest : List (Value α)) (up : Pending α)
  | all (operands : List (Outline α)) (value : Value α) (up : Pending α)
  | each (unit : Outline α) (rest : List (Value α)) (up : Pending α)
  /-- Go through a group so many times more. -/
  | passes (group : Outline α) (count : Nat) (items : List (Outline α)) (up : Pending α)

inductive Task (α : Type) where
  | resume (pending : Pending α) (values : List (Value α))
  | chain (items : List (Outline α)) (values : List (Value α)) (pending : Pending α)
  | one (item : Outline α) (value : Value α) (rest : List (Value α)) (pending : Pending α)
  | all (operands : List (Outline α)) (value : Value α) (rest : List (Value α))
    (pending : Pending α)
  | each (unit : Outline α) (values rest : List (Value α)) (pending : Pending α)
  | passes (group : Outline α) (count : Nat) (values : List (Value α)) (items : List (Outline α))
    (pending : Pending α)

namespace Matcher

def attemptRepetition (matcher : Matcher α) (call : Task α → Attempt α) (unit : Outline α)
    (repetition minimum : Nat) (greed : Greed) (values : List (Value α))
    (items : List (Outline α)) (pending : Pending α) : Attempt α :=
  let counts := greed.counts minimum values.length
  if unit.kind.isSequence then
    Attempt.tryCounts (fun count => .after (matcher.openLists repetition)
      (call (.passes unit count values items pending))) counts
  else if matcher.branches unit.id then
    Attempt.tryCounts (fun count => .after (matcher.openLists repetition)
      (call (.each unit (values.take count) (values.drop count) (.next items pending)))) counts
  else
    let matchOne := fun value => call (.one unit value [] .accept)
    let next := fun left => call (.resume (.next items pending) left)
    Attempt.orRollBack (.after (matcher.openLists repetition)
      (match greed with
        | .greedy => Attempt.flatGreedy matchOne minimum values next
        | .lazy => Attempt.flatLazy matchOne next minimum values))

variable [BEq α]

def attemptResume (matcher : Matcher α) (guard : Option (Bindings α → Bool))
    (call : Task α → Attempt α) : Pending α → List (Value α) → Attempt α
  | .done, values => .step (Step.exhausted (matcher.finish guard) values)
  | .accept, values => .step (Step.exhausted Step.accept values)
  | .next items up, values => call (.chain items values up)
  | .close rest up, values => if values.isEmpty then call (.resume up rest) else .fail
  | .all operands value up, values => call (.all operands value values up)
  | .each unit rest up, values => call (.each unit values rest up)
  | .passes group count items up, values => call (.passes group count values items up)

def attemptChain (matcher : Matcher α) (call : Task α → Attempt α) :
    List (Outline α) → List (Value α) → Pending α → Attempt α
  | [], values, pending => call (.resume pending values)
  | unit :: .node repetition (.repetition minimum greed) _ :: items, values, pending =>
    .after SearchState.move
      (matcher.attemptRepetition call unit repetition minimum greed values items pending)
  | item :: items, values, pending => .after SearchState.move <|
    match item.kind with
    | .condition accepts =>
      if !values.isEmpty then .fail
      else
        .branch (.step fun state => state.consult .condition accepts (matcher.snapshot state))
          (call (.chain items values pending)) .fail
    | .repetition _ _ => .step (SearchState.refuse · (.strayRepetition item.id))
    | .sequence => call (.chain item.children values (.next items pending))
    | _ =>
      match values with
      | [] => .fail
      | value :: values => call (.one item value values (.next items pending))

def attemptOne (matcher : Matcher α) (call : Task α → Attempt α) :
    Outline α → Value α → List (Value α) → Pending α → Attempt α
  | .node id kind children, value, rest, pending => .after SearchState.move <|
    let next := call (.resume pending rest)
    let parts := fun values => call (.chain children values (.close rest pending))
    let verdict := Attempt.any (fun item => call (.one item value [] .accept)) children
    match kind with
    | .test test => if test.accepts value then next else .fail
    | .wildcard => next
    | .bind _ =>
      .orRollBack (.after
        (fun state => { state with slots := state.slots.bind id (matcher.depth id) value }) next)
    | .deconstruct _ =>
      match matcher.decomposer? id with
      | none => .step (SearchState.refuse · (.missingDecomposer id))
      | some decomposer => ((decomposer value).map parts).getD .fail
    | .keyed shape keys => ((shape.lookup? keys value).map parts).getD .fail
    | .and => call (.all children value rest pending)
    | .or => .branch verdict next .fail
    | .not => .branch verdict .fail next
    | .sequence | .repetition _ _ | .condition _ =>
      .step (SearchState.refuse · (.misplacedNode id))

def attempt (matcher : Matcher α) (guard : Option (Bindings α → Bool))
    (call : Task α → Attempt α) : Task α → Attempt α
  | .resume pending values => matcher.attemptResume guard call pending values
  | .chain items values pending => matcher.attemptChain call items values pending
  | .one item value rest pending => matcher.attemptOne call item value rest pending
  | .all [] _ rest pending => call (.resume pending rest)
  | .all (operand :: operands) value rest pending =>
    call (.one operand value rest (.all operands value pending))
  | .each _ [] rest pending => call (.resume pending rest)
  | .each unit (value :: values) rest pending =>
    call (.one unit value values (.each unit rest pending))
  | .passes _ 0 values items pending => call (.chain items values pending)
  | .passes group (count + 1) values items pending =>
    call (.chain group.children values (.passes group count items pending))

/-- Make a call. It takes one unit of the budget, and so do the calls that it makes in turn, which
therefore cannot be nested more deeply than that. -/
def call (matcher : Matcher α) (guard : Option (Bindings α → Bool)) :
    (depth : Nat) → Task α → Attempt α
  | 0, _, _ => none
  | depth + 1, task, progress =>
    match progress.budget with
    | 0 => none
    | budget + 1 =>
      matcher.attempt guard (call matcher guard depth) task { progress with budget := budget }

def searchWithin (matcher : Matcher α) (budget : Nat) (guard : Option (Bindings α → Bool))
    (value : Value α) : Option (Bool × SearchState α) :=
  (matcher.call guard budget (.chain [matcher.outline] [value] .done)
    ⟨SearchState.start matcher.tree.size, budget⟩).map fun ended => (ended.1, ended.2.state)

def matchesWithin (matcher : Matcher α) (budget : Nat) (value : Value α) :
    Option (Option (Bindings α)) :=
  (matcher.searchWithin budget none value).map bindingsOf

def matchGuardedWithin (matcher : Matcher α) (budget : Nat) (guard : Bindings α → Bool)
    (value : Value α) : Option (Option (Bindings α)) :=
  (matcher.searchWithin budget (some guard) value).map bindingsOf

end Matcher

end Destructure
