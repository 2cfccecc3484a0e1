import Destructure.Proofs.Selection.FirstMatch

/-!
Programs over an environment, whose selectors run such programs again as actions of their clauses.
What they see is lexical: their answers are those of an interpreter that hands the frames of the
scopes around down and never changes them. What was visible before a step is visible after it.
-/

namespace Destructure

namespace Scoping

variable {α : Type}

/-! ## Programs -/

inductive Step (α : Type) where
  | get (name : String)
  | depth (name : String)
  | isEmpty
  /-- Steps within a scope with these bindings. -/
  | enter (bindings : Bindings α) (body : List (Step α))
  /-- Select one of the clauses, a pattern with an optional guard and the steps of its action. -/
  | evaluate (registry : Registry α) (options : Options)
      (clauses : List ((Pattern α × Option (Bindings α → Bool)) × List (Step α)))
      (value : Value α)

inductive Answer (α : Type) where
  | value (found : Option (Value α))
  | depth (count : Nat)
  | isEmpty (blank : Bool)
  /-- The scope has been left. -/
  | left
  /-- The action of a clause has been run. -/
  | selected
  | failed (error : Error α)

structure Report (α : Type) where
  answer : Answer α
  before : Environment α
  after : Environment α

def Report.Restores (report : Report α) : Prop :=
  (∀ name, report.after.stack name = report.before.stack name) ∧ report.after.Occupied

def reported {Result : Type} (action : Action α Result)
    (tell : Result → List (Report α) × Answer α) : Action α (List (Report α)) := fun session =>
  let (result, ended) := action session
  let (inner, answer) := tell result
  (inner ++ [⟨answer, session.environment, ended.environment⟩], ended)

def evaluated : Except (Error α) (List (Report α)) → List (Report α) × Answer α
  | .ok inner => (inner, .selected)
  | .error error => ([], .failed error)

section

variable [BEq α]

mutual

def run : Step α → Action α (List (Report α))
  | .get name => reported (Session.get? name) fun found => ([], .value found)
  | .depth name => reported (Session.depth name) fun count => ([], .depth count)
  | .isEmpty => reported Session.isEmpty fun blank => ([], .isEmpty blank)
  | .enter bindings body =>
    reported (Session.within bindings (runAll body)) fun inner => (inner, .left)
  | .evaluate registry options clauses value =>
    reported ((Selector.ofDrafts registry options (drafts clauses)).evaluate value) evaluated

def runAll : List (Step α) → Action α (List (Report α))
  | [] => pure []
  | step :: steps => do
    let reports ← run step
    let others ← runAll steps
    pure (reports ++ others)

def drafts : List ((Pattern α × Option (Bindings α → Bool)) × List (Step α)) →
    List (Selector.Draft α (List (Report α)))
  | [] => []
  | ((pattern, guard), body) :: clauses => ⟨pattern, guard, runAll body⟩ :: drafts clauses

end

mutual

/-- The answers of a step and of all steps within it, when these frames are around it. -/
def interpret (frames : Frames α) : Step α → List (Answer α)
  | .get name => [.value (frames.get? name)]
  | .depth name => [.depth (frames.depth name)]
  | .isEmpty => [.isEmpty frames.isEmpty]
  | .enter bindings body => interpretAll (bindings :: frames) body ++ [.left]
  | .evaluate registry options clauses value =>
    interpretFirst frames registry options value clauses

def interpretAll (frames : Frames α) : List (Step α) → List (Answer α)
  | [] => []
  | step :: steps => interpret frames step ++ interpretAll frames steps

def interpretFirst (frames : Frames α) (registry : Registry α) (options : Options)
    (value : Value α) :
    List ((Pattern α × Option (Bindings α → Bool)) × List (Step α)) → List (Answer α)
  | [] => [.failed (.noMatchingPattern value)]
  | ((pattern, guard), body) :: clauses =>
    match Matcher.compile pattern registry options with
    | .error error => [.failed error]
    | .ok matcher =>
      match matcher.consented? guard value with
      | some bindings => interpretAll (bindings :: frames) body ++ [.selected]
      | none => interpretFirst frames registry options value clauses

end

end

/-! ## Runs against the interpreter -/

structure Agrees (session : Session α) (answers : List (Answer α))
    (outcome : List (Report α) × Session α) : Prop where
  answers : outcome.1.map Report.answer = answers
  restores : ∀ report ∈ outcome.1, report.Restores
  environment : outcome.2.environment = session.environment

/-- An action agrees with what the interpreter says for the frames that the environment shows. -/
def Follows (action : Action α (List (Report α))) (answers : Frames α → List (Answer α)) : Prop :=
  ∀ ⦃session : Session α⦄ ⦃frames : Frames α⦄, session.environment.Occupied →
    session.environment.Shows frames → Agrees session (answers frames) (action session)

/-- A step agrees as soon as the steps within it do. -/
theorem Agrees.reported {Result : Type} {session ended : Session α} {action : Action α Result}
    {result : Result} {tell : Result → List (Report α) × Answer α}
    {answers expected : List (Answer α)} (occupied : session.environment.Occupied)
    (ends : action session = (result, ended))
    (within : Agrees session answers ((tell result).1, ended))
    (last : answers ++ [(tell result).2] = expected) :
    Agrees session expected (Scoping.reported action tell session) := by
  have kept : ended.environment = session.environment := within.environment
  simp only [Scoping.reported, ends]
  have restores : Report.Restores ⟨(tell result).2, session.environment, ended.environment⟩ :=
    ⟨fun name => congrArg (Environment.stack · name) kept, kept ▸ occupied⟩
  refine ⟨by simp [within.answers, ← last], ?_, kept⟩
  exact List.forall_mem_append.mpr ⟨within.restores, List.forall_mem_singleton.mpr restores⟩

theorem agrees_nothing (session : Session α) : Agrees session [] ([], session) :=
  ⟨rfl, List.forall_mem_nil _, rfl⟩

/-- Looking something up agrees when environments and frames agree on it. -/
theorem follows_query {Found : Type} (look : Environment α → Found) {seen : Frames α → Found}
    (same : ∀ {environment : Environment α} {frames : Frames α}, environment.Occupied →
      environment.Shows frames → look environment = seen frames) (tell : Found → Answer α) :
    Follows (reported (fun session => (look session.environment, session))
      fun found => ([], tell found)) fun frames => [tell (seen frames)] := by
  intro session frames occupied shown
  simp only [← same occupied shown]
  exact Agrees.reported occupied rfl (agrees_nothing session) rfl

/-- A scope is left as it was entered. -/
theorem Follows.within {action : Action α (List (Report α))}
    {answers : Frames α → List (Answer α)} (follows : Follows action answers)
    (bindings : Bindings α) :
    Follows (Session.within bindings action) fun frames => answers (bindings :: frames) := by
  intro session frames occupied shown
  have inner := @follows { session with environment := session.environment.enter bindings } _
    (occupied.enter bindings) (shown.enter bindings)
  refine ⟨inner.answers, inner.restores, ?_⟩
  change Environment.leave _ bindings.names = session.environment
  rw [inner.environment]
  exact Environment.leave_enter occupied bindings

section

variable [BEq α]

/-- Selection agrees when the actions of the clauses do, by induction on the clauses. -/
theorem follows_select (registry : Registry α) (options : Options) (value : Value α)
    (clauses : List ((Pattern α × Option (Bindings α → Bool)) × List (Step α)))
    (actions : ∀ clause ∈ clauses, Follows (runAll clause.2) (interpretAll · clause.2)) :
    Follows
      (reported (Selector.select value
        ((drafts clauses).map (Selector.Draft.clause registry options))) evaluated)
      (interpretFirst · registry options value clauses) := by
  intro session frames occupied shown
  induction clauses generalizing session with
  | nil => exact Agrees.reported occupied rfl (agrees_nothing session) rfl
  | cons clause clauses induction =>
      rcases clause with ⟨⟨pattern, guard⟩, body⟩
      rcases List.forall_mem_cons.mp actions with ⟨action, others⟩
      let first := Selector.Draft.clause registry options ⟨pattern, guard, runAll body⟩
      let later := (drafts clauses).map (Selector.Draft.clause registry options)
      let asked := session.asked (first.questions value)
      cases compiled : Matcher.compile pattern registry options with
      | error error =>
          have ends : Selector.select value (first :: later) session = (.error error, session) :=
            Selector.select_of_error compiled later session
          simp only [interpretFirst, compiled]
          exact Agrees.reported occupied ends (agrees_nothing session) rfl
      | ok matcher =>
          have ends := @Selector.select_of_compiled _ _ _ first value matcher compiled later session
          simp only [interpretFirst, compiled]
          cases found : matcher.consented? guard value with
          | some bindings =>
              have scope := @Follows.within _ _ _ action bindings asked frames occupied shown
              rw [show matcher.consented? first.guard value = _ from found] at ends
              exact Agrees.reported occupied ends
                ⟨scope.answers, scope.restores, scope.environment⟩ rfl
          | none =>
              have skipped := @induction others asked occupied shown
              rw [show matcher.consented? first.guard value = _ from found] at ends
              simp only [drafts, List.map_cons, reported] at skipped ⊢
              rw [ends]
              exact ⟨skipped.answers, skipped.restores, skipped.environment⟩

mutual

theorem follows_run : ∀ step : Step α, Follows (run step) (interpret · step)
  | .get name => follows_query (Environment.get? · name) (fun _ shown => shown.get?_eq name) .value
  | .depth name =>
      follows_query (Environment.depth · name) (fun _ shown => shown.depth_eq name) .depth
  | .isEmpty =>
      follows_query Environment.isEmpty (fun occupied shown => shown.isEmpty_eq occupied) .isEmpty
  | .enter bindings body => by
      intro session frames occupied shown
      simp only [run, interpret]
      exact Agrees.reported occupied rfl ((follows_runAll body).within bindings occupied shown) rfl
  | .evaluate registry options clauses value => by
      have selects := follows_select registry options value clauses (follows_bodies clauses)
      rw [← Selector.clauses_ofDrafts] at selects
      exact selects

theorem follows_runAll : ∀ steps : List (Step α), Follows (runAll steps) (interpretAll · steps)
  | [] => fun session _ _ _ => agrees_nothing session
  | step :: steps => by
      intro session frames occupied shown
      have first := follows_run step occupied shown
      have rest := follows_runAll steps (first.environment ▸ occupied) (first.environment ▸ shown)
      refine ⟨?_, ?_, rest.environment.trans first.environment⟩
      · exact List.map_append.trans (congrArg₂ _ first.answers rest.answers)
      · exact List.forall_mem_append.mpr ⟨first.restores, rest.restores⟩

theorem follows_bodies :
    ∀ clauses : List ((Pattern α × Option (Bindings α → Bool)) × List (Step α)),
      ∀ clause ∈ clauses, Follows (runAll clause.2) (interpretAll · clause.2)
  | [] => List.forall_mem_nil _
  | (_, body) :: clauses =>
      List.forall_mem_cons.mpr ⟨follows_runAll body, follows_bodies clauses⟩

end

/-- Scoping is lexical. In whatever way the environment has come about, a program answers at every
step as the interpreter does that hands frames down, whatever selectors make of it: a match, no
match, or a malformed clause. After every step each name has the stack of values it had before it,
and no stack is empty. -/
theorem scoping_is_lexical {session : Session α} (reachable : session.environment.Reachable)
    (program : List (Step α)) :
    (∃ frames, session.environment.Shows frames) ∧
      (∀ frames, session.environment.Shows frames →
        (runAll program session).1.map Report.answer = interpretAll frames program) ∧
      (∀ report ∈ (runAll program session).1,
        (∀ name, report.after.stack name = report.before.stack name) ∧ report.after.Occupied) ∧
      (runAll program session).2.environment = session.environment := by
  have occupied := reachable.occupied
  rcases session.environment.exists_shows with ⟨frames, shown⟩
  have agrees := follows_runAll program occupied shown
  refine ⟨⟨frames, shown⟩, ?_, agrees.restores, agrees.environment⟩
  intro frames shown
  exact (follows_runAll program occupied shown).answers

end

/-- A frame with a name twice, a match of two names within a match that shadows one of them, a
selector without a clause that matches and one with a malformed clause. -/
theorem shadowing_steps_are_lexical :
    let session : Session Nat := ⟨Environment.empty.enter ⟨[("a", .int 0)]⟩, []⟩
    let inner : List (Step Nat) := [.get "a", .get "b", .depth "a",
      .evaluate .standard {} [((.literal .nil, none), [.get "a"])] (.int 5)]
    let program : List (Step Nat) :=
      [.enter ⟨[("a", .int 1), ("a", .int 2)]⟩
        [.get "a", .depth "a",
          .evaluate .standard {} [((.list [.bind "a", .bind "b"], none), inner)]
            (.list [.int 3, .int 4])],
        .evaluate .standard {} [((.or [.bind "x", .wildcard], none), [])] (.int 5),
        .get "a", .get "b", .isEmpty]
    session.environment.Reachable ∧
      (runAll program session).1.map Report.answer =
        [.value (some (.int 2)), .depth 3,
          .value (some (.int 3)), .value (some (.int 4)), .depth 4,
          .failed (.noMatchingPattern (.int 5)), .selected, .left,
          .failed (.malformed ⟨[0], .bindingInAlternative "x" "Or"⟩),
          .value (some (.int 0)), .value none, .isEmpty false] ∧
      (runAll program session).2.environment = session.environment := by
  intro session inner program
  have reachable : session.environment.Reachable := .enter _ .empty
  have lexical := scoping_is_lexical reachable program
  have shown : session.environment.Shows [⟨[("a", .int 0)]⟩] := Environment.shows_empty.enter _
  exact ⟨reachable, (lexical.2.1 _ shown).trans rfl, lexical.2.2.2⟩

end Scoping

end Destructure
