import Destructure.Proofs.Matching.Interchange
import Destructure.Proofs.Matching.Remainders

/-!
Unrolling a repetition. Repeating a unit so many times or more is matching it once and then
repeating it one time less or more, as long as a repetition may have so many passes at all: it never
has more of them than there are values left. A unit that takes at least one value would not have
more passes anyway.
-/

namespace Destructure

variable {α : Type}

/-! ## The first pass -/

namespace Way

variable {unit : Way α → List (Way α)} {values left : List (Value α)} {count minimum : Nat}

/-- Of several passes one may be left out if passes may be empty here; otherwise the first one of
them that takes anything has taken a value, so that there may be as many passes as are left. -/
theorem restsAfter_succ_cases (shrinks : Shrinks unit) (passable : Passable unit)
    (after : left ∈ restsAfter unit (count + 1) values) :
    (values ∈ rests unit values ∧ left ∈ restsAfter unit count values) ∨
      ∃ middle ∈ rests unit values, left ∈ restsAfter unit count middle ∧
        count + left.length ≤ middle.length := by
  induction count generalizing values with
  | zero =>
      rcases mem_restsAfter_succ.mp after with ⟨middle, first, others⟩
      cases List.mem_singleton.mp others
      exact .inr ⟨left, first, List.mem_singleton_self left, by omega⟩
  | succ count induction =>
      rcases mem_restsAfter_succ.mp after with ⟨middle, first, others⟩
      have shorter := (shrinks.suffix first).length_le
      rcases induction others with ⟨empty, fewer⟩ | ⟨next, second, fewer, room⟩
      · have here := passable middle values empty shorter
        exact .inl ⟨here, mem_restsAfter_succ.mpr ⟨middle, first, fewer⟩⟩
      · have shorter' := (shrinks.suffix second).length_le
        rcases Nat.lt_or_ge next.length middle.length with takes | whole
        · exact .inr ⟨middle, first, others, by omega⟩
        · cases (shrinks.suffix second).eq_of_length_le whole
          have here := passable _ values second shorter
          exact .inl ⟨here, mem_restsAfter_succ.mpr ⟨_, first, fewer⟩⟩

/-- The first pass may be made beforehand where there is room for all of them. -/
theorem exists_passes_iff (shrinks : Shrinks unit) (passable : Passable unit) :
    (∃ count, minimum + 1 ≤ count ∧ count ≤ values.length ∧ left ∈ restsAfter unit count values) ↔
      minimum + 1 ≤ values.length ∧ ∃ middle ∈ rests unit values, ∃ count,
        minimum ≤ count ∧ count ≤ middle.length ∧ left ∈ restsAfter unit count middle := by
  constructor
  · rintro ⟨count, atLeast, atMost, after⟩
    obtain ⟨fewer, rfl⟩ : ∃ fewer, count = fewer + 1 := ⟨count - 1, by omega⟩
    refine ⟨by omega, ?_⟩
    rcases restsAfter_succ_cases shrinks passable after with
      ⟨empty, others⟩ | ⟨middle, first, others, room⟩
    · exact ⟨values, empty, fewer, by omega, by omega, others⟩
    · exact ⟨middle, first, fewer, by omega, by omega, others⟩
  · rintro ⟨room, middle, first, count, atLeast, atMost, others⟩
    have shorter := (shrinks.suffix first).length_le
    rcases Nat.lt_or_ge count values.length with less | full
    · exact ⟨count + 1, by omega, by omega, mem_restsAfter_succ.mpr ⟨middle, first, others⟩⟩
    · cases (shrinks.suffix first).eq_of_length_le (by omega)
      exact ⟨count, by omega, atMost, others⟩

/-- Ways to go on where there is room for one pass more than a minimum. Nothing is taken; if passes
take values there may also be no room, since then they are not made anyway. -/
structure Opens (opening unit : Way α → List (Way α)) (minimum : Nat) : Prop where
  silent : Silent opening
  stays : ∀ values, ∀ left ∈ rests opening values, left = values
  opens : ∀ values, minimum + 1 ≤ values.length → values ∈ rests opening values
  closes : ∀ values, values ∈ rests opening values → minimum + 1 ≤ values.length ∨ Takes unit

theorem Takes.opens (takes : Takes unit) (minimum : Nat) :
    Opens (fun way => [way]) unit minimum where
  silent := .stay
  stays _ _ := List.mem_singleton.mp
  opens values _ := List.mem_singleton_self values
  closes _ _ := .inr takes

theorem Silent.listed {onward onward' : Way α → List (Way α)} (silent : Silent onward)
    (silent' : Silent onward') {way : Way α}
    (same : ∀ left, left ∈ rests onward way.left ↔ left ∈ rests onward' way.left) :
    Listed (onward way) (onward' way) := by
  rw [silent way, silent' way]
  exact Listed.map _ same

theorem Opens.listed_repeatedFrom {opening : Way α → List (Way α)}
    (opens : Opens opening unit minimum) (silent : Silent unit) (shrinks : Shrinks unit)
    (passable : Passable unit) (greed : Greed) (way : Way α) :
    Listed (repeatedFrom [] unit greed (minimum + 1) way)
      ((opening way).flatMap fun later =>
        (unit later).flatMap (repeatedFrom [] unit greed minimum)) := by
  have silentPasses := silent.flatMap (.repeatedFrom unit greed minimum)
  apply Silent.listed (.repeatedFrom _ _ _) (opens.silent.flatMap silentPasses)
  intro left
  rw [mem_rests_repeatedFrom, exists_passes_iff shrinks passable, rests_flatMap opens.silent,
    List.mem_flatMap]
  simp only [rests_flatMap silent, List.mem_flatMap, mem_rests_repeatedFrom]
  constructor
  · rintro ⟨room, passes⟩
    exact ⟨way.left, opens.opens _ room, passes⟩
  · rintro ⟨values, opened, passes⟩
    cases opens.stays _ values opened
    refine ⟨?_, passes⟩
    rcases opens.closes _ opened with room | takes
    · exact room
    · rcases passes with ⟨middle, first, count, atLeast, atMost, -⟩
      have shorter := takes.length_lt first
      omega

end Way

/-! ## Rows -/

namespace Pattern

/-- Items that take nothing and stand where so many values are left: a repetition has no more
passes than that, and its passes may well be empty. -/
def room (count : Nat) : List (Pattern α) :=
  [sequence [not [wildcard], repetition 0 none], repetition count none]

/-- What has to stand before a unit that is unrolled: nothing if it takes a value, and room for all
passes in any case. -/
inductive Opening (unit : Pattern α) (minimum : Nat) : List (Pattern α) → Prop
  | none (takes : unit.takesSome) : Opening unit minimum []
  | room : Opening unit minimum (room (minimum + 1))

/-- A unit is put in front of its repetition, which gets by with one pass less. -/
inductive Unrolls : List (Pattern α) → List (Pattern α) → Prop
  | unroll (before front : List (Pattern α)) (unit : Pattern α) (minimum : Nat)
      (greed : Option Greed) (after : List (Pattern α)) (unbound : unit.boundNames = [])
      (fits : Opening unit minimum front) :
      Unrolls (before ++ unit :: repetition (minimum + 1) greed :: after)
        (before ++ (front ++ unit :: unit :: repetition minimum greed :: after))

section

variable [BEq α] (registry : Registry α) (greed : Greed)

omit [BEq α] in
theorem silent_room (count : Nat) : ∀ item ∈ (room count : List (Pattern α)), item.Silent := by
  intro item member
  simp only [room, List.mem_cons, List.not_mem_nil, or_false] at member
  rcases member with rfl | rfl
  · exact ⟨rfl, rfl⟩
  · exact ⟨rfl, rfl⟩

/-- A pattern that matches nothing cannot be repeated. -/
theorem mem_rests_skipped {values left : List (Value α)} :
    left ∈ Way.rests (rowWays registry greed [not [wildcard], repetition 0 none]) values ↔
      left = values := by
  have never : ∀ values, Way.rests ((not [wildcard]).unitWays registry greed) values = [] := by
    rintro (_ | ⟨value, left⟩) <;> rfl
  have unbound : (not [wildcard] : Pattern α).boundNames = [] := rfl
  rw [rowWays_repeatedFrom, unbound, Way.rests_flatMap (.repeatedFrom _ _ _), List.mem_flatMap]
  simp only [Way.mem_rests_repeatedFrom]
  constructor
  · rintro ⟨middle, ⟨count, -, -, after⟩, rest⟩
    cases List.mem_singleton.mp rest
    cases count with
    | zero => exact List.mem_singleton.mp after
    | succ count =>
        rcases Way.mem_restsAfter_succ.mp after with ⟨_, first, -⟩
        rw [never] at first
        cases first
  · rintro rfl
    have passes : left ∈ Way.restsAfter ((not [wildcard]).unitWays registry greed) 0 left :=
      List.mem_singleton_self left
    exact ⟨left, ⟨0, Nat.le_refl 0, Nat.zero_le _, passes⟩, List.mem_singleton_self left⟩

theorem mem_rests_room {count : Nat} {values left : List (Value α)} :
    left ∈ Way.rests (rowWays registry greed (room count)) values ↔
      count ≤ values.length ∧ left = values := by
  have unbound : (sequence [not [wildcard], repetition 0 none] : Pattern α).boundNames = [] := rfl
  have after : ∀ passes, ∀ values left : List (Value α),
      left ∈ Way.restsAfter (rowWays registry greed [not [wildcard], repetition 0 none]) passes
        values ↔ left = values := by
    intro passes values left
    induction passes with
    | zero => exact List.mem_singleton
    | succ passes induction =>
        rw [Way.mem_restsAfter_succ]
        simp [mem_rests_skipped, induction]
  rw [room, rowWays_repeatedFrom, unbound, Way.rests_flatMap (.repeatedFrom _ _ _),
    List.mem_flatMap]
  simp only [Way.mem_rests_repeatedFrom]
  constructor
  · rintro ⟨middle, ⟨passes, atLeast, atMost, reached⟩, rest⟩
    cases List.mem_singleton.mp rest
    exact ⟨Nat.le_trans atLeast atMost, (after _ _ _).mp reached⟩
  · rintro ⟨fits, rfl⟩
    exact ⟨_, ⟨count, Nat.le_refl count, fits, (after _ _ _).mpr rfl⟩, List.mem_singleton_self _⟩

theorem opens_room (unit : Way α → List (Way α)) (minimum : Nat) :
    Way.Opens (rowWays registry greed (room (minimum + 1))) unit minimum where
  silent := (silent_ways registry greed).row _ (silent_room _)
  stays _ _ leaves := ((mem_rests_room registry greed).mp leaves).2
  opens _ fits := (mem_rests_room registry greed).mpr ⟨fits, rfl⟩
  closes _ leaves := .inl ((mem_rests_room registry greed).mp leaves).1

theorem listed_unrolled {unit : Pattern α} (silent : unit.Silent)
    (plain : unit.isRepetition = false) {front : List (Pattern α)} {minimum : Nat}
    (fits : Opening unit minimum front) (order : Option Greed)
    (after : List (Pattern α)) (way : Way α) :
    Listed (rowWays registry greed (unit :: repetition (minimum + 1) order :: after) way)
      (rowWays registry greed (front ++ unit :: unit :: repetition minimum order :: after)
        way) := by
  have leads : repetitionLeads (unit :: unit :: repetition minimum order :: after) = false := plain
  have leads' : repetitionLeads (unit :: repetition minimum order :: after) = false := plain
  have opens : Way.Opens (rowWays registry greed front) (unit.unitWays registry greed) minimum := by
    cases fits with
    | none takes => exact ((takes_ways registry greed).item unit takes).opens minimum
    | room => exact opens_room registry greed _ minimum
  have conditional := isCondition_eq_false silent.unconditional
  rw [rowWays_append _ _ leads, funext (rowWays_unit _ _ conditional leads'),
    rowWays_repeatedFrom, rowWays_repeatedFrom, silent.unbound]
  simp only [← List.flatMap_assoc]
  apply Listed.flatMap _ fun _ => .refl _
  rw [List.flatMap_assoc]
  exact opens.listed_repeatedFrom ((silent_ways registry greed).item unit silent).2
    ((shrinks_ways registry greed).item unit) ((passable_ways registry greed).item unit silent) _
    way

end

/-! ## Well-formedness -/

section

variable [BEq α] {node unit : Pattern α} {before after parts : List (Pattern α)}

/-- What is repeated in a row is no repetition and holds no condition. -/
theorem WellMade.plain_unit {minimum : Nat} {greed : Option Greed} (wellMade : node.WellMade)
    (split : node.parts = before ++ unit :: repetition minimum greed :: after) :
    unit.isRepetition = false ∧ unit.holdsCondition = false := by
  have inside : repetition minimum greed ∈ node.parts := by simp [split]
  have last := wellMade.placed.conditionsLast
    (isOrdered_of_holdsItems (wellMade.holdsItems inside rfl))
  have founded := wellMade.founded
  rw [split, founded_iff, ← List.cons_append, List.isChain_append, List.isChain_cons_cons]
    at founded
  rw [split, conditionsLast_iff, List.isChain_append, List.isChain_cons_cons] at last
  refine ⟨founded.2.1.1 rfl, Bool.eq_false_iff.mpr fun holds => ?_⟩
  cases last.2.1.1 holds

theorem made_room (count : Nat) : ∀ item ∈ (room count : List (Pattern α)), item.Made := by
  have accepted : (Tree.build (list (room count : List (Pattern α))) {}).malformed? {} = none := rfl
  rw [malformed?_eq_none_iff, wellFormed_iff_made] at accepted
  exact ((made_iff _).mp accepted.2.1).2

theorem made_repetition (minimum : Nat) (greed : Option Greed) :
    (repetition minimum greed : Pattern α).Made := by
  have accepted : (Tree.build (list [wildcard, (repetition minimum greed : Pattern α)])
      {}).malformed? {} = none := rfl
  rw [malformed?_eq_none_iff, wellFormed_iff_made] at accepted
  exact ((made_iff _).mp accepted.2.1).2 _ (List.mem_cons_of_mem _ (List.mem_singleton_self _))

omit [BEq α] in
theorem founded_unrolled {front : List (Pattern α)} {minimum : Nat} {greed : Option Greed}
    (plain : unit.isRepetition = false)
    (fits : Opening unit minimum front) :
    Founded (front ++ [unit, unit, repetition minimum greed]) := by
  have behind : ∀ item : Pattern α, unit.isRepetition → item.isRepetition = false :=
    fun _ repeats => absurd (plain.symm.trans repeats) Bool.false_ne_true
  have units : [unit, unit, repetition minimum greed].IsChain fun item next =>
      next.isRepetition → item.isRepetition = false :=
    .cons_cons (behind unit) (.cons_cons (fun _ => plain) (.singleton _))
  rw [founded_iff]
  cases fits with
  | none takes => exact .cons_cons (behind _) units
  | room =>
      apply List.IsChain.cons_cons fun leads => absurd leads Bool.false_ne_true
      exact .cons_cons (fun _ => rfl) (.cons_cons (behind _) units)

omit [BEq α] in
theorem silent_unrolled {front : List (Pattern α)} {minimum : Nat} {greed : Option Greed}
    (silent : unit.Silent) (fits : Opening unit minimum front) :
    ∀ item ∈ front ++ [unit, unit, repetition minimum greed], item.Silent := by
  have silentRepetition : (repetition minimum greed : Pattern α).Silent := ⟨rfl, rfl⟩
  rw [List.forall_mem_append]
  constructor
  · cases fits with
    | none takes => exact List.forall_mem_nil _
    | room => exact silent_room _
  · simp [silent, silentRepetition]

theorem replaces_unrolled {front : List (Pattern α)} {minimum : Nat} {greed : Option Greed}
    (made : unit.Made) (plain : unit.isRepetition = false) (silent : unit.Silent)
    (fits : Opening unit minimum front) :
    Replaces [unit, repetition (minimum + 1) greed]
      (front ++ [unit, unit, repetition minimum greed]) := by
  have silentItems := @silent_unrolled α unit front minimum greed silent fits
  have silentUnit : ∀ item ∈ [unit, repetition (minimum + 1) greed], item.Silent := by
    have silentRepetition : (repetition (minimum + 1) greed : Pattern α).Silent := ⟨rfl, rfl⟩
    simp [silent, silentRepetition]
  refine ⟨by simp, founded_unrolled plain fits, conditionsLast_of_silent silentItems, ?_, ?_, ?_,
    ?_⟩
  · rw [List.forall_mem_append]
    constructor
    · cases fits with
      | none takes => exact List.forall_mem_nil _
      | room => exact made_room _
    · simp [made, made_repetition]
  · rw [any_holdsCondition_of_silent silentItems, any_holdsCondition_of_silent silentUnit]
  · rw [boundNames_of_silent silentItems, boundNames_of_silent silentUnit]
  · have shapes : ∀ count, (repetition count greed : Pattern α).shapeNames = [] := fun _ => rfl
    have shapesFront : front.flatMap shapeNames = [] := by
      cases fits <;> rfl
    simp [List.flatMap_append, shapes, shapesFront]

theorem Unrolls.replaces (unrolls : Unrolls node.parts parts) (made : node.Made) :
    node.holdsItems ∧ Replaces node.parts parts := by
  generalize split : node.parts = items at unrolls
  cases unrolls with
  | unroll before front unit minimum greed after unbound fits =>
      have inside : repetition (minimum + 1) greed ∈ node.parts := by simp [split]
      have madeUnit := ((made_iff node).mp made).2 unit (by simp [split])
      rcases ((made_iff node).mp made).1.plain_unit split with ⟨plain, unconditional⟩
      have silent : unit.Silent := ⟨unbound, unconditional⟩
      have replaces : Replaces [unit, repetition (minimum + 1) greed]
          (front ++ [unit, unit, repetition minimum greed]) :=
        replaces_unrolled madeUnit plain silent fits
      have middle : front ++ unit :: unit :: repetition minimum greed :: after =
          (front ++ [unit, unit, repetition minimum greed]) ++ after := by simp
      rw [← split, middle]
      apply made.replaces split inside rfl replaces (List.cons_ne_nil _ _)
      · rintro first ⟨⟩ isCondition
        rw [isCondition_eq_false silent.unconditional] at isCondition
        cases isCondition
      · intro final _ final' isFinal' holds
        rw [(silent_unrolled silent fits final' (List.mem_of_mem_getLast? isFinal')).unconditional]
          at holds
        cases holds
      · rintro final ⟨⟩ final' _ _ isRepetition
        cases isRepetition

theorem Unrolls.listed (registry : Registry α) (greed : Greed)
    (unrolls : Unrolls node.parts parts) (made : node.Made) (way : Way α) :
    Listed (Turns.outcomes (rowTurns registry greed node.parts way))
      (Turns.outcomes (rowTurns registry greed parts way)) := by
  generalize split : node.parts = items at unrolls
  cases unrolls with
  | unroll before front unit minimum order after unbound fits =>
      rcases ((made_iff node).mp made).1.plain_unit split with ⟨plain, unconditional⟩
      have leads : repetitionLeads (unit :: repetition (minimum + 1) order :: after) = false :=
        plain
      have leads' :
          repetitionLeads (front ++ unit :: unit :: repetition minimum order :: after) = false := by
        cases fits with
        | none takes => exact plain
        | room => rfl
      rw [rowTurns_append _ _ leads, rowTurns_append _ _ leads']
      apply Turns.congruence_listed.andThen (.refl _)
      intro later
      rw [(outcomes_turns registry greed).row, (outcomes_turns registry greed).row]
      exact listed_unrolled registry greed ⟨unbound, unconditional⟩ plain fits order after later

end

end Pattern

namespace Matcher

/-- A repetition may be unrolled: with the unit in front of it and one pass less to make, the
pattern compiles too and matches the same values. A unit that may be left out has to be put behind
room for all passes, since there are no more passes than values. -/
theorem unrolled_isMatch_eq [BEq α] {pattern pattern' : Pattern α}
    (unrolls : Pattern.Somewhere Pattern.Unrolls pattern pattern') {registry : Registry α}
    {options : Options} {matcher : Matcher α}
    (compiled : compile pattern registry options = .ok matcher) :
    ∃ matcher', compile pattern' registry options = .ok matcher' ∧
      ∀ value, matcher'.isMatch value = matcher.isMatch value := by
  rcases compiles_of_somewhere unrolls (fun _ _ made changed => changed.replaces made)
    ⟨matcher, compiled⟩ with ⟨matcher', compiled'⟩
  refine ⟨matcher', compiled', fun value => ?_⟩
  have same := unrolls.interchangeable Turns.congruence_listed
    (fun _ _ made changed => changed.replaces made)
    (fun _ _ made changed way => changed.listed registry options.defaultGreed made way)
    (made_of_compile compiled)
  have ways := same.rowTurns Turns.congruence_listed [] [] ⟨[], [value]⟩
  have outcomes := (Pattern.outcomes_turns registry options.defaultGreed).row
  rw [outcomes, outcomes] at ways
  have solutions : Listed (pattern.solutions registry options value)
      (pattern'.solutions registry options value) := ((Way.listed_complete ways).filter _).map _
  rw [isMatch, isMatch, matches?, matches?, (compiled_of_compile compiled').bindingsOf_search,
    (compiled_of_compile compiled).bindingsOf_search]
  exact (solutions.isSome_find?_eq _).symm

theorem unrolled_sequence_agrees : ∃ matcher matcher' : Matcher Nat,
    compile (.list [.sequence [.wildcard, .repetition 0 none], .repetition 2 (some .lazy),
        .bind "last"]) .standard {} = .ok matcher ∧
      compile (.list (Pattern.room 2 ++ [.sequence [.wildcard, .repetition 0 none],
        .sequence [.wildcard, .repetition 0 none], .repetition 1 (some .lazy), .bind "last"]))
          .standard {} = .ok matcher' ∧
      ∀ value, matcher'.isMatch value = matcher.isMatch value := by
  obtain ⟨matcher, compiled⟩ : ∃ matcher : Matcher Nat,
      compile (.list [.sequence [.wildcard, .repetition 0 none], .repetition 2 (some .lazy),
        .bind "last"]) .standard {} = .ok matcher := ⟨_, rfl⟩
  have unrolls : Pattern.Somewhere Pattern.Unrolls
      (.list [.sequence [(.wildcard : Pattern Nat), .repetition 0 none],
        .repetition 2 (some .lazy), .bind "last"])
      (.list (Pattern.room 2 ++ [.sequence [.wildcard, .repetition 0 none],
        .sequence [.wildcard, .repetition 0 none], .repetition 1 (some .lazy), .bind "last"])) :=
    .here (.unroll [] (Pattern.room 2) _ 1 _ [.bind "last"] rfl .room)
  rcases unrolled_isMatch_eq unrolls compiled with ⟨matcher', compiled', agrees⟩
  exact ⟨matcher, matcher', compiled, compiled', agrees⟩

/-- Without room the unrolled pattern may match where the repetition does not: here there are no
values, so that there is no pass either, not even an empty one. -/
theorem unrolled_sequence_without_room : ∃ matcher matcher' : Matcher Nat,
    compile (.list [.sequence [.wildcard, .repetition 0 none], .repetition 1 none])
        .standard {} = .ok matcher ∧
      compile (.list [.sequence [.wildcard, .repetition 0 none],
        .sequence [.wildcard, .repetition 0 none], .repetition 0 none]) .standard {} =
          .ok matcher' ∧
      matcher.isMatch (.list []) = false ∧ matcher'.isMatch (.list []) = true :=
  ⟨_, _, rfl, rfl, rfl, rfl⟩

end Matcher

end Destructure
