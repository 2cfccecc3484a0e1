import Destructure.Proofs.Matching.BoundNames
import Destructure.Proofs.Matching.Consultations
import Destructure.Proofs.Matching.Occurrences
import Destructure.Proofs.Matching.RenamedWays
import Destructure.Proofs.Matching.Replacement

/-!
A repeated name is a demand on what is bound. If the places of a name are told apart, and a guard
demands that equal values are bound at all of them, then the search goes the same way as with the
repeated name, and the guard proper is asked about the same bindings.
-/

namespace Destructure

variable {α : Type}

/-! ## Different names -/

namespace Named

variable {β : Type} {pairs : Named β}

theorem firsts_of_nodup (nodup : (names pairs).Nodup) : firsts pairs = pairs := by
  induction pairs with
  | nil => rfl
  | cons pair pairs induction =>
      rcases List.nodup_cons.mp nodup with ⟨fresh, nodup⟩
      rw [firsts, induction nodup, List.filter_eq_self.mpr]
      intro other member
      rw [bne_iff_ne]
      intro same
      exact fresh (List.mem_map.mpr ⟨other, member, same⟩)

theorem agree_of_nodup [BEq α] {pairs : Named (Value α)} (nodup : (names pairs).Nodup) :
    agree pairs = true := by
  induction pairs using List.reverseRecOn with
  | nil => rfl
  | append_singleton pairs pair induction =>
      rw [names, List.map_append, List.nodup_append] at nodup
      have fresh : pair.1 ∉ names pairs := fun member =>
        nodup.2.2 _ member _ (List.mem_singleton_self _) rfl
      rw [agree_append_singleton pairs pair.1 pair.2, induction nodup.1,
        Value.fieldOf?_eq_none fresh]
      rfl

end Named

namespace Occurrence

/-- Two lists of bound values that differ in nothing but their names. -/
theorem exists_occurrences {bound bound' : Named (Value α)}
    (same : bound.map Prod.snd = bound'.map Prod.snd) :
    ∃ occurrences : List (Occurrence α),
      occurrences.map pair = bound ∧ occurrences.map ownPair = bound' := by
  induction bound generalizing bound' with
  | nil =>
      cases bound' with
      | nil => exact ⟨[], rfl, rfl⟩
      | cons pair' bound' => cases same
  | cons pair bound induction =>
      cases bound' with
      | nil => cases same
      | cons pair' bound' =>
          rw [List.map_cons, List.map_cons, List.cons.injEq] at same
          rcases induction same.2 with ⟨occurrences, rfl, rfl⟩
          refine ⟨⟨pair.1, pair'.1, pair.2⟩ :: occurrences, rfl, ?_⟩
          rw [List.map_cons, ownPair, same.1]

end Occurrence

/-! ## Patterns -/

namespace Pattern

def anonymous (pattern : Pattern α) : Pattern α := pattern.renamed fun _ => ""

/-- The pattern in which each occurrence of a name but the first has a name of its own. -/
structure TellsApart (pattern pattern' : Pattern α) : Prop where
  anonymous_eq : pattern'.anonymous = pattern.anonymous
  distinguished : Distinguished pattern.boundNames pattern'.boundNames

theorem shapeNames_renamed (change : String → String) (pattern : Pattern α) :
    (pattern.renamed change).shapeNames = pattern.shapeNames := by
  rw [shapeNames, (preorder_renamed change).item, List.filterMap_map, shapeNames]
  congr 1
  funext node
  cases node with
  | deconstruct shape items => cases shape <;> rfl
  | _ => rfl

section

variable {pattern pattern' : Pattern α}

theorem holdsCondition_eq_of_anonymous (same : pattern'.anonymous = pattern.anonymous) :
    pattern'.holdsCondition = pattern.holdsCondition := by
  rw [← holdsCondition_renamed (fun _ => ""), ← holdsCondition_renamed (fun _ => "") pattern]
  exact congrArg holdsCondition same

variable [BEq α]

theorem TellsApart.compiles (apart : TellsApart pattern pattern') {registry : Registry α}
    {options options' : Options}
    (compiles : ∃ matcher, Matcher.compile pattern registry options = .ok matcher) :
    ∃ matcher, Matcher.compile pattern' registry options' = .ok matcher := by
  rw [Matcher.compile_eq_ok_iff_made] at compiles ⊢
  rcases compiles with ⟨⟨takes, made, -⟩, registered⟩
  refine ⟨⟨?_, ?_, fun _ => apart.distinguished.nodup⟩, ?_⟩
  · rw [← takesValue_renamed (fun _ => ""), ← anonymous, apart.anonymous_eq]
    exact (takesValue_renamed _ _).trans takes
  · rw [← made_renamed (fun _ => ""), ← anonymous, apart.anonymous_eq]
    exact (made_renamed _ _).mpr made
  · rw [← shapeNames_renamed (fun _ => ""), ← anonymous, apart.anonymous_eq]
    rw [anonymous, shapeNames_renamed]
    exact registered

/-- In the ways of both patterns the same values are bound. -/
theorem TellsApart.ways (apart : TellsApart pattern pattern')
    (unconditional : pattern.holdsCondition = false) (registry : Registry α) (greed : Greed)
    (value : Value α) :
    List.Forall₂ (fun bound bound' : Named (Value α) => bound.map Prod.snd = bound'.map Prod.snd)
      (Way.complete (rowWays registry greed [pattern] ⟨[], [value]⟩))
      (Way.complete (rowWays registry greed [pattern'] ⟨[], [value]⟩)) := by
  have renames : ∀ pattern : Pattern α, pattern.holdsCondition = false →
      (Way.complete (rowWays registry greed [pattern] ⟨[], [value]⟩)).map
          (Named.renamed fun _ => "") =
        Way.complete (rowWays registry greed [pattern.anonymous] ⟨[], [value]⟩) := by
    intro pattern unconditional
    have row := (renames_ways registry greed fun _ => "").row [pattern] (by simp [unconditional])
      ⟨[], [value]⟩
    rw [← Way.complete_renamed, ← row]
    rfl
  have unconditional' := (holdsCondition_eq_of_anonymous apart.anonymous_eq).trans unconditional
  have same := renames pattern unconditional
  rw [← apart.anonymous_eq, ← renames pattern' unconditional'] at same
  rw [← List.forall₂_eq_eq_eq, List.forall₂_map_left_iff, List.forall₂_map_right_iff] at same
  apply same.imp
  intro bound bound' renamed
  have values := congrArg (List.map Prod.snd) renamed
  simpa [Named.renamed, Function.comp_def] using values

end

end Pattern

/-! ## Trials -/

namespace Trial

variable {β γ δ : Type}

/-- A trial as it is seen by somebody who is told of some of the consultations only, and of these
and of the result in other words. -/
def seen (keeps : Consultation α → Bool) (view : Consultation α → Consultation α) (change : β → γ)
    (trial : Trial α β) : Trial α γ :=
  ⟨(trial.consultations.filter keeps).map view, trial.result.map change⟩

variable {keeps : Consultation α → Bool} {view : Consultation α → Consultation α} {change : γ → δ}

theorem seen_orElse (first second : Trial α γ) :
    (first.orElse second).seen keeps view change =
      (first.seen keeps view change).orElse (second.seen keeps view change) := by
  rcases first with ⟨asked, result⟩
  cases result <;> simp [orElse, seen]

theorem explore_quiet_eq_seen {ι : Type} {related : β → ι → Prop} {goal : β → Trial α δ}
    {goal' : ι → Trial α γ} {listed : List β} {listed' : List ι}
    (pairs : List.Forall₂ related listed listed')
    (same : ∀ outcome outcome', related outcome outcome' →
      goal outcome = (goal' outcome').seen keeps view change) :
    explore goal (Turns.quiet listed) =
      (explore goal' (Turns.quiet listed')).seen keeps view change := by
  induction pairs with
  | nil => rfl
  | cons relates _ induction =>
      rw [Turns.quiet, List.map_cons, explore_reached, Turns.quiet, List.map_cons, explore_reached,
        seen_orElse, same _ _ relates]
      exact congrArg _ induction

end Trial

namespace Bindings

variable [BEq α]

/-- The guard for the pattern in which the occurrences of names are told apart: equal values are
bound at all places of a name, and the guard proper accepts what is bound under the names
themselves. -/
def guardPlaces (names names' : List String) (guard : Bindings α → Bool) (bindings : Bindings α) :
    Bool :=
  bindings.placesAgree names names' && guard (bindings.restrict names)

end Bindings

namespace Consultation

def restrict (names : List String) (consultation : Consultation α) : Consultation α :=
  { consultation with bindings := consultation.bindings.restrict names }

end Consultation

namespace Pattern

variable [BEq α] {pattern pattern' : Pattern α}

theorem concluding_told_apart {occurrences : List (Occurrence α)} {names names' : List String}
    (isNames : occurrences.map Occurrence.name = names)
    (isNames' : occurrences.map Occurrence.ownName = names')
    (distinguished : Distinguished names names') (guard : Bindings α → Bool) :
    concluding (some guard) (occurrences.map Occurrence.pair) =
      (concluding (some (Bindings.guardPlaces names names' guard))
        (occurrences.map Occurrence.ownPair)).seen
          (fun consultation => consultation.bindings.placesAgree names names')
          (Consultation.restrict names) (Bindings.restrict names) := by
  subst isNames isNames'
  have apart := Occurrence.apart_of_distinguished distinguished
  have nodup : (Named.names (occurrences.map Occurrence.ownPair)).Nodup := by
    rw [Occurrence.names_map_ownPair]
    exact distinguished.nodup
  have agrees := apart.placesAgree_ownPair
  have restricted := apart.restrict_ownPair
  rw [concluding, concluding, Named.agree_of_nodup nodup, Named.firsts_of_nodup nodup, ← agrees,
    ← restricted]
  generalize Bindings.mk (occurrences.map Occurrence.ownPair) = bindings
  generalize occurrences.map Occurrence.name = names, occurrences.map Occurrence.ownName = names'
  cases agreed : bindings.placesAgree names names' with
  | false => simp [Bindings.guardPlaces, Trial.seen, Trial.after, Trial.failure, agreed]
  | true =>
      cases accepted : guard (bindings.restrict names) with
      | false =>
          simp [Bindings.guardPlaces, Trial.seen, Trial.after, Trial.failure, agreed, accepted,
            Consultation.restrict]
      | true =>
          simp [Bindings.guardPlaces, Trial.seen, Trial.after, Trial.success, agreed, accepted,
            Consultation.restrict]

/-- A trial with a repeated name is the trial with different names, as far as the guard proper is
concerned. -/
theorem TellsApart.trial_eq (apart : TellsApart pattern pattern')
    (unconditional : pattern.holdsCondition = false) {registry : Registry α}
    {options options' : Options} {value : Value α}
    (greed : options'.defaultGreed = options.defaultGreed)
    (names : ∀ bound ∈ Way.complete (rowWays registry options.defaultGreed [pattern]
      ⟨[], [value]⟩), Named.names bound = pattern.boundNames)
    (names' : ∀ bound ∈ Way.complete (rowWays registry options.defaultGreed [pattern']
      ⟨[], [value]⟩), Named.names bound = pattern'.boundNames)
    (guard : Bindings α → Bool) :
    pattern.trial registry options (some guard) value =
      (pattern'.trial registry options'
        (some (Bindings.guardPlaces pattern.boundNames pattern'.boundNames guard)) value).seen
          (fun consultation =>
            consultation.bindings.placesAgree pattern.boundNames pattern'.boundNames)
          (Consultation.restrict pattern.boundNames) (Bindings.restrict pattern.boundNames) := by
  have unconditional' := (holdsCondition_eq_of_anonymous apart.anonymous_eq).trans unconditional
  rw [trial, trial, greed, rowTurns_eq_quiet _ _ (by simp [unconditional]),
    rowTurns_eq_quiet _ _ (by simp [unconditional']), Way.completeTurns_quiet,
    Way.completeTurns_quiet]
  have here := forall₂_imp_of_mem (apart.ways unconditional registry options.defaultGreed value)
    fun bound member bound' same => And.intro (names bound member) same
  have both := forall₂_imp_of_mem here.flip
    fun bound' member bound related => And.intro (names' bound' member) related
  apply Trial.explore_quiet_eq_seen both.flip
  rintro bound bound' ⟨isNames', isNames, same⟩
  rcases Occurrence.exists_occurrences same with ⟨occurrences, rfl, rfl⟩
  rw [Occurrence.names_map_pair] at isNames
  rw [Occurrence.names_map_ownPair] at isNames'
  exact concluding_told_apart isNames isNames' apart.distinguished guard

end Pattern

namespace Matcher

theorem Compiled.names_of_complete [BEq α] {matcher : Matcher α} {pattern : Pattern α}
    {registry : Registry α} {options : Options}
    (compiled : matcher.Compiled pattern registry options) {value : Value α}
    {bound : Named (Value α)}
    (member : bound ∈ Way.complete (Pattern.rowWays registry options.defaultGreed [pattern]
      ⟨[], [value]⟩)) : Named.names bound = pattern.boundNames := by
  rcases exists_of_mem_right (compiled.mirrors_search value).outcomes member with
    ⟨contents, -, recorded⟩
  exact compiled.names_of_recorded recorded

/-- A repeated name is the same as different names and a guard. If a pattern without conditions
compiles, then it does so with each occurrence of a name but the first told apart; and with a guard
that demands equal values at all places of a name, the search ends with the same bindings of the
names themselves, and the guard proper is asked about the same bindings one after another. -/
theorem repeated_names_act_as_guard [BEq α] {pattern pattern' : Pattern α}
    (apart : Pattern.TellsApart pattern pattern') (unconditional : pattern.holdsCondition = false)
    {registry : Registry α} {options options' : Options} {matcher : Matcher α}
    (compiled : compile pattern registry options = .ok matcher)
    (greed : options'.defaultGreed = options.defaultGreed) :
    ∃ matcher', compile pattern' registry options' = .ok matcher' ∧
      ∀ guard value,
        matcher.matchGuarded? guard value =
            (matcher'.matchGuarded?
              (Bindings.guardPlaces pattern.boundNames pattern'.boundNames guard) value).map
              (Bindings.restrict pattern.boundNames) ∧
          consultationsOf (matcher.search (some guard) value) =
            ((consultationsOf (matcher'.search
              (some (Bindings.guardPlaces pattern.boundNames pattern'.boundNames guard))
              value)).filter fun consultation =>
                consultation.bindings.placesAgree pattern.boundNames pattern'.boundNames).map
              (Consultation.restrict pattern.boundNames) := by
  obtain ⟨matcher', compiled'⟩ : ∃ matcher', compile pattern' registry options' = .ok matcher' :=
    apart.compiles ⟨matcher, compiled⟩
  refine ⟨matcher', compiled', fun guard value => ?_⟩
  have names' : ∀ bound ∈ Way.complete (Pattern.rowWays registry options'.defaultGreed [pattern']
      ⟨[], [value]⟩), Named.names bound = pattern'.boundNames :=
    fun _ => (compiled_of_compile compiled').names_of_complete
  rw [greed] at names'
  have trials := apart.trial_eq unconditional greed
    (fun _ => (compiled_of_compile compiled).names_of_complete) names' guard
  rcases search_eq_trial compiled (some guard) value with ⟨result, consultations⟩
  rcases search_eq_trial compiled'
    (some (Bindings.guardPlaces pattern.boundNames pattern'.boundNames guard)) value with
    ⟨result', consultations'⟩
  rw [matchGuarded?, matchGuarded?, result, result', consultations, consultations', trials]
  exact ⟨rfl, rfl⟩

theorem name_repeated_at_depth_acts_as_guard : ∃ matcher matcher' : Matcher Nat,
    compile (.list [.bind "x", .list [.bind "x", .bind "y", .repetition 0 none],
        .repetition 0 none, .bind "y"]) .standard {} = .ok matcher ∧
      compile (.list [.bind "x", .list [.bind "x2", .bind "y", .repetition 0 none],
        .repetition 0 none, .bind "y2"]) .standard { repeatedNames := .rejected } = .ok matcher' ∧
      ∀ guard value,
        matcher.matchGuarded? guard value =
          (matcher'.matchGuarded?
            (Bindings.guardPlaces ["x", "x", "y", "y"] ["x", "x2", "y", "y2"] guard) value).map
            (Bindings.restrict ["x", "x", "y", "y"]) := by
  obtain ⟨matcher, compiled⟩ : ∃ matcher : Matcher Nat,
      compile (.list [.bind "x", .list [.bind "x", .bind "y", .repetition 0 none],
        .repetition 0 none, .bind "y"]) .standard {} = .ok matcher := ⟨_, rfl⟩
  have apart : Pattern.TellsApart
      (.list [.bind "x", .list [.bind "x", .bind "y", .repetition 0 none],
        .repetition 0 none, (.bind "y" : Pattern Nat)])
      (.list [.bind "x", .list [.bind "x2", .bind "y", .repetition 0 none],
        .repetition 0 none, .bind "y2"]) := by
    refine ⟨rfl, rfl, by decide, ?_⟩
    change ∀ place name, ["x", "x", "y", "y"][place]? = some name →
      name ∉ ["x", "x", "y", "y"].take place → ["x", "x2", "y", "y2"][place]? = some name
    rintro (_ | _ | _ | _ | place) name found fresh <;> simp_all
  rcases @repeated_names_act_as_guard Nat _ _ _ apart rfl .standard {}
    { repeatedNames := .rejected } matcher compiled rfl with ⟨matcher', compiled', same⟩
  exact ⟨matcher, matcher', compiled, compiled', fun guard value => (same guard value).1⟩

end Matcher

end Destructure
