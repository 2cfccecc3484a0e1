import Destructure.Proofs.Matching.BoundNames
import Destructure.Proofs.Selection.Stacks
import Destructure.Selection.Selector

/-!
The first clause that settles the matter decides: one whose pattern cannot be compiled, or which
the value matches. Evaluation asks what the searches up to that clause ask, in order, and then
either reports the error or runs this one action. Neither the actions of clauses before it nor
anything of those behind it makes a difference.
-/

namespace Destructure

variable {α Result : Type}

def Matcher.consented? [BEq α] (matcher : Matcher α) (guard : Option (Bindings α → Bool))
    (value : Value α) : Option (Bindings α) :=
  match guard with
  | none => matcher.matches? value
  | some accepts => matcher.matchGuarded? accepts value

theorem Matcher.consented?_eq [BEq α] (matcher : Matcher α)
    (guard : Option (Bindings α → Bool)) (value : Value α) :
    matcher.consented? guard value = bindingsOf (matcher.search guard value) := by
  cases guard <;> rfl

def Session.asked (session : Session α) (questions : List (Consultation α)) : Session α :=
  { session with consultations := questions.reverse ++ session.consultations }

@[simp] theorem Session.asked_asked (session : Session α) (first second : List (Consultation α)) :
    (session.asked first).asked second = session.asked (first ++ second) := by
  simp [asked]

/-! ## Clauses -/

namespace Clause

def settles [BEq α] (clause : Clause α Result) (value : Value α) : Bool :=
  match clause.matcher with
  | .error _ => true
  | .ok matcher => (matcher.consented? clause.guard value).isSome

def questions [BEq α] (clause : Clause α Result) (value : Value α) : List (Consultation α) :=
  match clause.matcher with
  | .error _ => []
  | .ok matcher => Matcher.consultationsOf (matcher.search clause.guard value)

end Clause

namespace Selector

theorem search_eq_asked [BEq α] (matcher : Matcher α) (guard : Option (Bindings α → Bool))
    (value : Value α) (session : Session α) :
    Session.search matcher guard value session =
      (matcher.consented? guard value,
        session.asked (Matcher.consultationsOf (matcher.search guard value))) := by
  rw [Matcher.consented?_eq]
  simp [Session.search, Session.asked, Matcher.consultationsOf]

section

variable [BEq α] {clause : Clause α Result} {value : Value α}

theorem select_of_error {error : Error α} (malformed : clause.matcher = .error error)
    (clauses : List (Clause α Result)) (session : Session α) :
    select value (clause :: clauses) session = (.error error, session) := by
  rw [select, malformed]
  rfl

theorem select_of_compiled {matcher : Matcher α} (compiled : clause.matcher = .ok matcher)
    (clauses : List (Clause α Result)) (session : Session α) :
    select value (clause :: clauses) session =
      match matcher.consented? clause.guard value with
      | some bindings =>
        Prod.map .ok id
          (Session.within bindings clause.action (session.asked (clause.questions value)))
      | none => select value clauses (session.asked (clause.questions value)) := by
  have searched := search_eq_asked matcher clause.guard value session
  rw [select, compiled, Clause.questions, compiled]
  simp only [bind, StateT.bind, searched]
  cases matcher.consented? clause.guard value <;> rfl

theorem select_of_skipped (skipped : clause.settles value = false)
    (clauses : List (Clause α Result)) (session : Session α) :
    select value (clause :: clauses) session =
      select value clauses (session.asked (clause.questions value)) := by
  cases compiled : clause.matcher with
  | error error => simp [Clause.settles, compiled] at skipped
  | ok matcher =>
      have none : matcher.consented? clause.guard value = none := by
        simpa [Clause.settles, compiled] using skipped
      rw [select_of_compiled compiled, none]

/-- Clauses that do not settle the matter are passed over, after their questions. -/
theorem select_append {before : List (Clause α Result)}
    (skipped : ∀ clause ∈ before, clause.settles value = false)
    (clauses : List (Clause α Result)) (session : Session α) :
    select value (before ++ clauses) session =
      select value clauses
        (session.asked (before.flatMap fun clause => clause.questions value)) := by
  induction before generalizing session with
  | nil => rfl
  | cons clause before induction =>
      rcases List.forall_mem_cons.mp skipped with ⟨here, later⟩
      rw [List.cons_append, select_of_skipped here, induction later, Session.asked_asked,
        List.flatMap_cons]

end

/-! ## Clauses as they are written -/

structure Draft (α Result : Type) where
  pattern : Pattern α
  guard : Option (Bindings α → Bool)
  action : Action α Result

namespace Draft

def test (draft : Draft α Result) : Pattern α × Option (Bindings α → Bool) :=
  (draft.pattern, draft.guard)

def clause [BEq α] (registry : Registry α) (options : Options) (draft : Draft α Result) :
    Clause α Result :=
  ⟨Matcher.compile draft.pattern registry options, draft.guard, draft.action⟩

end Draft

section

variable [BEq α]

def ofDrafts (registry : Registry α) (options : Options) (drafts : List (Draft α Result)) :
    Selector α Result :=
  drafts.foldl (fun selector draft => selector.add draft.pattern draft.guard draft.action)
    (empty registry options)

theorem clauses_ofDrafts (registry : Registry α) (options : Options)
    (drafts : List (Draft α Result)) :
    (ofDrafts registry options drafts).clauses = drafts.map (Draft.clause registry options) := by
  have added : ∀ selector : Selector α Result,
      (drafts.foldl (fun selector draft => selector.add draft.pattern draft.guard draft.action)
        selector).clauses =
          selector.clauses ++ drafts.map (Draft.clause selector.registry selector.options) := by
    induction drafts with
    | nil => simp
    | cons draft drafts induction =>
        intro selector
        rw [List.foldl_cons, induction]
        simp [add, Draft.clause]
  exact added (empty registry options)

variable (registry : Registry α) (options : Options) (value : Value α)

def Settles (draft : Draft α Result) : Bool := (draft.clause registry options).settles value

def questionsOf (draft : Draft α Result) : List (Consultation α) :=
  (draft.clause registry options).questions value

/-- The action of a draft has been run once, with exactly the bindings of a match on top of what
was visible before, and these have been taken off again. -/
structure RunsAction (draft : Draft α Result) (bindings : Bindings α) (session : Session α)
    (outcome : Except (Error α) Result × Session α) : Prop where
  names : bindings.names = draft.pattern.boundNames.eraseDups
  /-- Every name of the pattern is one level deeper. -/
  deeper : ∀ name ∈ draft.pattern.boundNames, ∃ bound, bindings.get? name = some bound ∧
    (session.environment.enter bindings).stack name = bound :: session.environment.stack name
  /-- All other names are unchanged. -/
  unchanged : ∀ name ∉ draft.pattern.boundNames,
    (session.environment.enter bindings).stack name = session.environment.stack name
  outcome :
    let ended := draft.action { session with environment := session.environment.enter bindings }
    outcome = (.ok ended.1,
      { ended.2 with environment := ended.2.environment.leave bindings.names })

variable {registry options value}

theorem evaluate_of_skipped {before : List (Draft α Result)}
    (skipped : ∀ draft ∈ before, Settles registry options value draft = false)
    (drafts : List (Draft α Result)) (session : Session α) :
    (ofDrafts registry options (before ++ drafts)).evaluate value session =
      select value (drafts.map (Draft.clause registry options))
        (session.asked (before.flatMap (questionsOf registry options value))) := by
  have passed : ∀ clause ∈ before.map (Draft.clause registry options),
      clause.settles value = false := by
    intro clause member
    rcases List.mem_map.mp member with ⟨draft, among, rfl⟩
    exact skipped draft among
  rw [evaluate, clauses_ofDrafts, List.map_append, select_append passed, List.flatMap_map]
  rfl

end

theorem under_of_nodup {bindings : Bindings α} (distinct : bindings.names.Nodup) (name : String) :
    Named.under name bindings.pairs = (bindings.get? name).toList := by
  rcases bindings with ⟨pairs⟩
  simp only [Bindings.names] at distinct
  simp only [Bindings.get?, Value.fieldOf?]
  induction pairs with
  | nil => rfl
  | cons pair pairs induction =>
      rw [List.map_cons, List.nodup_cons] at distinct
      rcases distinct with ⟨fresh, others⟩
      by_cases same : pair.1 = name
      · subst same
        have absent : Named.under pair.1 pairs = [] := Named.under_eq_nil fresh
        rw [Named.under] at absent
        simp [Named.under, absent]
      · have different : (pair.1 == name) = false := by simpa using same
        rw [List.find?_cons, different, ← induction others]
        simp [Named.under, same]

/-- The action of a clause that has matched is run with the bindings of the match. -/
theorem runsAction_of_matched [BEq α] {registry : Registry α} {options : Options}
    {value : Value α} {draft : Draft α Result} {matcher : Matcher α}
    (compiled : Matcher.compile draft.pattern registry options = .ok matcher)
    {bindings : Bindings α} (found : matcher.consented? draft.guard value = some bindings)
    (session : Session α) :
    RunsAction draft bindings session
      (Prod.map .ok id (Session.within bindings draft.action session)) := by
  have tables := Matcher.compiled_of_compile compiled
  rw [Matcher.consented?_eq] at found
  have ofMatcher : bindings.names = matcher.variableNames := tables.names_of_result found
  have names : bindings.names = draft.pattern.boundNames.eraseDups :=
    ofMatcher.trans tables.variableNames_eq
  have distinct : bindings.names.Nodup := by
    rw [ofMatcher, Matcher.variableNames, tables.names]
    exact Named.nodup_names_firsts _
  have stack : ∀ name, (session.environment.enter bindings).stack name =
      (bindings.get? name).toList ++ session.environment.stack name := by
    intro name
    rw [Environment.stack_enter, under_of_nodup distinct]
    cases bindings.get? name <;> rfl
  refine ⟨names, ?_, ?_, rfl⟩
  · intro name member
    have inside : name ∈ bindings.names := by
      rw [names]
      exact List.mem_eraseDups.mpr member
    rcases List.mem_map.mp inside with ⟨pair, among, rfl⟩
    have present : (bindings.get? pair.1).isSome := by
      simpa [Bindings.get?, Value.fieldOf?] using ⟨pair.2, among⟩
    rcases Option.isSome_iff_exists.mp present with ⟨bound, isBound⟩
    refine ⟨bound, isBound, ?_⟩
    rw [stack, isBound]
    rfl
  · intro name absent
    have outside : bindings.get? name = none := by
      rw [Bindings.get?, Value.fieldOf?, Option.map_eq_none_iff, List.find?_eq_none]
      intro pair among same
      apply absent
      rw [← List.mem_eraseDups, ← names, ← beq_iff_eq.mp same]
      exact List.mem_map_of_mem among
    rw [stack, outside]
    rfl

section

variable [BEq α] {registry : Registry α} {options : Options} {value : Value α}

theorem evaluate_of_getElem? {drafts : List (Draft α Result)} {index : Nat}
    {draft : Draft α Result} (present : drafts[index]? = some draft)
    (skipped : ∀ earlier ∈ drafts.take index, Settles registry options value earlier = false)
    (session : Session α) :
    (ofDrafts registry options drafts).evaluate value session =
      select value
        (draft.clause registry options ::
          (drafts.drop (index + 1)).map (Draft.clause registry options))
        (session.asked ((drafts.take index).flatMap (questionsOf registry options value))) := by
  rcases List.getElem?_eq_some_iff.mp present with ⟨inside, rfl⟩
  rw [← List.map_cons, List.getElem_cons_drop, ← evaluate_of_skipped skipped,
    List.take_append_drop]

theorem select_of_settles {clause : Clause α Result} (settles : clause.settles value = true)
    (clauses others : List (Clause α Result)) (session : Session α) :
    select value (clause :: clauses) session = select value (clause :: others) session := by
  cases compiled : clause.matcher with
  | error error => rw [select_of_error compiled, select_of_error compiled]
  | ok matcher =>
      rw [Clause.settles, compiled] at settles
      rcases Option.isSome_iff_exists.mp settles with ⟨bindings, found⟩
      rw [select_of_compiled compiled, select_of_compiled compiled, found]

/-- Whether drafts are passed over, and what is asked then, does not depend on their actions. -/
theorem skipped_of_tests {drafts others : List (Draft α Result)}
    (same : others.map Draft.test = drafts.map Draft.test)
    (skipped : ∀ draft ∈ drafts, Settles registry options value draft = false) :
    (∀ draft ∈ others, Settles registry options value draft = false) ∧
      others.flatMap (questionsOf registry options value) =
        drafts.flatMap (questionsOf registry options value) := by
  induction drafts generalizing others with
  | nil =>
      rw [List.map_eq_nil_iff.mp same]
      exact ⟨skipped, rfl⟩
  | cons draft drafts induction =>
      rcases List.map_eq_cons_iff.mp same with ⟨other, rest, rfl, here, later⟩
      rcases List.forall_mem_cons.mp skipped with ⟨passed, others⟩
      rcases induction later others with ⟨restPassed, questions⟩
      rcases Prod.mk.inj here with ⟨pattern, guard⟩
      have alike : Settles registry options value other = Settles registry options value draft ∧
          questionsOf registry options value other = questionsOf registry options value draft := by
        simp only [Settles, questionsOf, Draft.clause, Clause.settles, Clause.questions, pattern,
          guard, and_self]
      refine ⟨List.forall_mem_cons.mpr ⟨alike.1.trans passed, restPassed⟩, ?_⟩
      rw [List.flatMap_cons, List.flatMap_cons, alike.2, questions]

end

/-- Evaluation asks what the searches for the drafts ask, up to the first one that settles the
matter. If that one is malformed it reports the error, and otherwise it runs its action once, with
the bindings of the match. What the other actions are, and what comes behind this draft, makes no
difference. If no draft settles the matter, evaluation says that the value matches nothing. -/
theorem first_settling_clause_decides [BEq α] (registry : Registry α) (options : Options)
    (drafts : List (Draft α Result)) (value : Value α) (session : Session α) :
    let outcome := (ofDrafts registry options drafts).evaluate value session
    let asked := fun drafts : List (Draft α Result) =>
      session.asked (drafts.flatMap (questionsOf registry options value))
    match drafts.findIdx? (Settles registry options value) with
    | none => outcome = (.error (.noMatchingPattern value), asked drafts)
    | some index => ∃ draft, drafts[index]? = some draft ∧
      (match Matcher.compile draft.pattern registry options with
        | .error error => outcome = (.error error, asked (drafts.take (index + 1)))
        | .ok matcher => ∃ bindings, matcher.consented? draft.guard value = some bindings ∧
          RunsAction draft bindings (asked (drafts.take (index + 1))) outcome) ∧
      ∀ others : List (Draft α Result), others[index]? = some draft →
        (others.take index).map Draft.test = (drafts.take index).map Draft.test →
        (ofDrafts registry options others).evaluate value session = outcome := by
  intro outcome asked
  cases first : drafts.findIdx? (Settles registry options value) with
  | none =>
      have skipped := List.findIdx?_eq_none_iff.mp first
      have ended := evaluate_of_skipped skipped [] session
      rw [List.append_nil] at ended
      exact ended
  | some index =>
      rcases List.findIdx?_eq_some_iff_getElem.mp first with ⟨inside, settles, before⟩
      have skipped : ∀ earlier ∈ drafts.take index,
          Settles registry options value earlier = false := by
        intro earlier member
        rcases List.mem_take_iff_getElem.mp member with ⟨place, below, rfl⟩
        exact Bool.eq_false_iff.mpr (before place (by omega))
      have present : drafts[index]? = some drafts[index] := List.getElem?_eq_getElem inside
      have ended := evaluate_of_getElem? present skipped session
      have questions : (drafts.take (index + 1)).flatMap (questionsOf registry options value) =
          (drafts.take index).flatMap (questionsOf registry options value) ++
            questionsOf registry options value drafts[index] := by
        rw [List.take_succ_eq_append_getElem inside, List.flatMap_append, List.flatMap_singleton]
      refine ⟨drafts[index], present, ?_, ?_⟩
      · cases compiled : Matcher.compile drafts[index].pattern registry options with
        | error error =>
            have none : questionsOf registry options value drafts[index] = [] := by
              rw [questionsOf, Draft.clause, Clause.questions, compiled]
            rw [none, List.append_nil] at questions
            rw [select_of_error compiled] at ended
            simpa only [asked, questions] using ended
        | ok matcher =>
            rw [Settles, Draft.clause, Clause.settles, compiled] at settles
            rcases Option.isSome_iff_exists.mp settles with ⟨bindings, found⟩
            have ran := runsAction_of_matched compiled found
              (session.asked ((drafts.take (index + 1)).flatMap
                (questionsOf registry options value)))
            refine ⟨bindings, found, ?_⟩
            rw [select_of_compiled compiled, Draft.clause, found, Session.asked_asked] at ended
            rw [questions] at ran
            simp only [asked, questions, outcome, ended]
            exact ran
      · intro others same tests
        rcases skipped_of_tests tests skipped with ⟨othersSkipped, othersAsked⟩
        rw [evaluate_of_getElem? same othersSkipped, othersAsked, select_of_settles settles]
        exact ended.symm

/-- The guard rejects the longest match and accepts the next one. The draft before matches nothing
like it, and the malformed draft behind is not reached. -/
theorem guarded_draft_settles :
    let drafts : List (Draft Nat (Option (Value Nat))) :=
      [⟨.literal (.int 1), none, Session.get? "a"⟩,
        ⟨.list [.bind "a", .repetition 0 none, .bind "b", .repetition 0 none],
          some fun bindings => bindings.get? "a" == some (.list []), Session.get? "b"⟩,
        ⟨.or [.bind "x", .wildcard], none, Session.get? "x"⟩]
    let value : Value Nat := .list [.symbol "s"]
    let outcome := (ofDrafts .standard {} drafts).evaluate value Session.fresh
    drafts.findIdx? (Settles .standard {} value) = some 1 ∧
      (drafts.take 2).flatMap (questionsOf .standard {} value) =
        [⟨.guard, ⟨[("a", .list [.symbol "s"]), ("b", .list [])]⟩, false⟩,
          ⟨.guard, ⟨[("a", .list []), ("b", .list [.symbol "s"])]⟩, true⟩] ∧
      outcome.1 = .ok (some (.list [.symbol "s"])) ∧
      ∀ others, (ofDrafts .standard {} (drafts.take 2 ++ others)).evaluate value Session.fresh =
        outcome := by
  intro drafts value outcome
  have first : drafts.findIdx? (Settles .standard {} value) = some 1 := rfl
  have decides := first_settling_clause_decides .standard {} drafts value Session.fresh
  rw [first] at decides
  rcases decides with ⟨draft, present, decides, alike⟩
  cases present
  obtain ⟨matcher, compiled⟩ : ∃ matcher : Matcher Nat,
      Matcher.compile (.list [.bind "a", .repetition 0 none, .bind "b", .repetition 0 none])
        .standard {} = .ok matcher := ⟨_, rfl⟩
  simp only [compiled] at decides
  rcases decides with ⟨bindings, found, ran⟩
  refine ⟨first, rfl, ?_, fun others => alike _ rfl rfl⟩
  cases compiled
  cases found
  exact congrArg Prod.fst ran.outcome

end Selector

end Destructure
