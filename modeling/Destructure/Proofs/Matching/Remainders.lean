import Destructure.Proofs.Matching.PatternTurns
import Destructure.Proofs.Matching.Repetition

/-!
What items leave of a row of values. Values are taken from the front and never put back. Items that
neither bind nor ask anything are known by what they leave, and if they may leave everything, they
may do so in front of any longer row.
-/

namespace Destructure

variable {α : Type}

namespace Way

variable (onward next : Way α → List (Way α))

def rests (values : List (Value α)) : List (List (Value α)) :=
  (onward ⟨[], values⟩).map left

def restsAfter (unit : Way α → List (Way α)) : Nat → List (Value α) → List (List (Value α))
  | 0, values => [values]
  | count + 1, values => (rests unit values).flatMap (restsAfter unit count)

def Silent : Prop := ∀ way, onward way = (rests onward way.left).map (mk way.bound)

variable {onward next}

theorem Silent.stay : Silent fun way : Way α => [way] := fun _ => rfl

theorem rests_flatMap (silent : Silent onward) (values : List (Value α)) :
    rests (fun way => (onward way).flatMap next) values =
      (rests onward values).flatMap (rests next) := by
  rw [rests, silent, List.flatMap_map, List.map_flatMap]
  rfl

theorem Silent.flatMap (silent : Silent onward) (silentNext : Silent next) :
    Silent fun way => (onward way).flatMap next := by
  intro way
  rw [rests_flatMap silent]
  beta_reduce
  rw [silent way, List.flatMap_map, List.map_flatMap]
  congr 1
  funext left
  exact silentNext ⟨way.bound, left⟩

theorem Silent.single {item : Value α → Named (Value α) → List (Named (Value α))}
    (silent : ∀ value bound, item value bound = (item value []).map fun _ => bound) :
    Silent (Way.single item) := by
  rintro ⟨bound, _ | ⟨value, left⟩⟩
  · rfl
  · simp only [rests, Way.single, silent value bound, List.map_map]
    rfl

theorem map_passes (unit : Way α → List (Way α)) (count : Nat) (values : List (Value α)) :
    (passes unit count values).map Prod.snd = restsAfter unit count values := by
  induction count generalizing values with
  | zero => rfl
  | succ count induction =>
      rw [passes, restsAfter, rests, List.map_flatMap, List.flatMap_map]
      congr 1
      funext way
      rw [List.map_map, ← induction]
      rfl

theorem repeated_nil (unit : Way α → List (Way α)) (way : Way α) (count : Nat) :
    repeated [] unit way count = (restsAfter unit count way.left).map (mk way.bound) := by
  rw [repeated, ← map_passes, List.map_map]
  congr 1
  funext passed
  exact congrArg (mk · passed.2) (List.append_nil way.bound)

theorem Silent.repeatedFrom (unit : Way α → List (Way α)) (greed : Greed) (minimum : Nat) :
    Silent (repeatedFrom [] unit greed minimum) := by
  intro way
  rw [rests, Way.repeatedFrom, Way.repeatedFrom, List.map_flatMap, List.map_flatMap]
  congr 1
  funext count
  rw [repeated_nil, repeated_nil, List.map_map, List.map_map]
  rfl

theorem mem_rests_repeatedFrom {unit : Way α → List (Way α)} {greed : Greed} {minimum : Nat}
    {values left : List (Value α)} :
    left ∈ rests (repeatedFrom [] unit greed minimum) values ↔
      ∃ count, minimum ≤ count ∧ count ≤ values.length ∧ left ∈ restsAfter unit count values := by
  simp [rests, repeatedFrom, repeated_nil, Greed.mem_counts, and_assoc]

theorem mem_restsAfter_succ {unit : Way α → List (Way α)} {count : Nat}
    {values left : List (Value α)} :
    left ∈ restsAfter unit (count + 1) values ↔
      ∃ middle ∈ rests unit values, left ∈ restsAfter unit count middle := List.mem_flatMap

/-! ## Passes -/

section

variable {unit : Way α → List (Way α)} {values left : List (Value α)} {count : Nat}

def Shrinks (onward : Way α → List (Way α)) : Prop :=
  ∀ way, ∀ later ∈ onward way, later.left <:+ way.left

def Takes (onward : Way α → List (Way α)) : Prop :=
  ∀ way, ∀ later ∈ onward way, later.left.length < way.left.length

/-- What may be left alone may be left alone in front of more values too. -/
def Passable (onward : Way α → List (Way α)) : Prop :=
  ∀ values others, values ∈ rests onward values → values.length ≤ others.length →
    others ∈ rests onward others

theorem Shrinks.suffix (shrinks : Shrinks unit) (leaves : left ∈ rests unit values) :
    left <:+ values := by
  rcases List.mem_map.mp leaves with ⟨way, among, rfl⟩
  exact shrinks _ way among

theorem Takes.length_lt (takes : Takes unit) (leaves : left ∈ rests unit values) :
    left.length < values.length := by
  rcases List.mem_map.mp leaves with ⟨way, among, rfl⟩
  exact takes _ way among

theorem Shrinks.suffixAfter (shrinks : Shrinks unit)
    (leaves : left ∈ restsAfter unit count values) : left <:+ values := by
  induction count generalizing values with
  | zero => exact List.mem_singleton.mp leaves ▸ List.suffix_refl _
  | succ count induction =>
      rcases mem_restsAfter_succ.mp leaves with ⟨middle, first, others⟩
      exact (induction others).trans (shrinks.suffix first)

/-- Passes that leave everything alone are all empty. -/
theorem Shrinks.rests_of_restsAfter (shrinks : Shrinks unit)
    (leaves : values ∈ restsAfter unit (count + 1) values) : values ∈ rests unit values := by
  rcases mem_restsAfter_succ.mp leaves with ⟨middle, first, others⟩
  have whole : middle = values :=
    (shrinks.suffix first).eq_of_length_le (shrinks.suffixAfter others).length_le
  exact whole ▸ first

theorem restsAfter_of_rests (leaves : values ∈ rests unit values) (count : Nat) :
    values ∈ restsAfter unit count values := by
  induction count with
  | zero => exact List.mem_singleton_self values
  | succ count induction => exact mem_restsAfter_succ.mpr ⟨values, leaves, induction⟩

theorem mem_restsAfter_of_repeated {names : List String} {way later : Way α}
    (among : later ∈ repeated names unit way count) :
    later.left ∈ restsAfter unit count way.left := by
  rcases List.mem_map.mp among with ⟨passed, member, rfl⟩
  rw [← map_passes]
  exact List.mem_map_of_mem member

theorem Shrinks.stay : Shrinks fun way : Way α => [way] := by
  intro way later among
  cases List.mem_singleton.mp among
  exact List.suffix_refl _

theorem Shrinks.single (item : Value α → Named (Value α) → List (Named (Value α))) :
    Shrinks (Way.single item) := by
  rintro ⟨bound, _ | ⟨value, left⟩⟩ later among
  · cases among
  · rcases List.mem_map.mp among with ⟨later, -, rfl⟩
    exact List.suffix_cons value left

theorem Takes.single (item : Value α → Named (Value α) → List (Named (Value α))) :
    Takes (Way.single item) := by
  rintro ⟨bound, _ | ⟨value, left⟩⟩ later among
  · cases among
  · rcases List.mem_map.mp among with ⟨later, -, rfl⟩
    exact Nat.lt_succ_self _

theorem Shrinks.flatMap (shrinks : Shrinks onward) (shrinksNext : Shrinks next) :
    Shrinks fun way => (onward way).flatMap next := by
  intro way later among
  rcases List.mem_flatMap.mp among with ⟨middle, first, others⟩
  exact (shrinksNext middle later others).trans (shrinks way middle first)

theorem Takes.flatMap (takes : Takes onward) (shrinksNext : Shrinks next) :
    Takes fun way => (onward way).flatMap next := by
  intro way later among
  rcases List.mem_flatMap.mp among with ⟨middle, first, others⟩
  exact Nat.lt_of_le_of_lt (shrinksNext middle later others).length_le (takes way middle first)

theorem Shrinks.takes_flatMap (shrinks : Shrinks onward) (takesNext : Takes next) :
    Takes fun way => (onward way).flatMap next := by
  intro way later among
  rcases List.mem_flatMap.mp among with ⟨middle, first, others⟩
  exact Nat.lt_of_lt_of_le (takesNext middle later others) (shrinks way middle first).length_le

theorem Shrinks.repeatedFrom (shrinks : Shrinks unit) (names : List String) (greed : Greed)
    (minimum : Nat) : Shrinks (repeatedFrom names unit greed minimum) := by
  intro way later among
  rcases List.mem_flatMap.mp among with ⟨count, -, among⟩
  exact shrinks.suffixAfter (mem_restsAfter_of_repeated among)

theorem Takes.repeatedFrom (takes : Takes unit) (shrinks : Shrinks unit) (names : List String)
    (greed : Greed) {minimum : Nat} (some : minimum ≠ 0) :
    Takes (repeatedFrom names unit greed minimum) := by
  intro way later among
  rcases List.mem_flatMap.mp among with ⟨count, counted, among⟩
  have atLeast := (Greed.mem_counts.mp counted).1
  have after := mem_restsAfter_of_repeated among
  cases count with
  | zero => omega
  | succ count =>
      rcases mem_restsAfter_succ.mp after with ⟨middle, first, others⟩
      exact Nat.lt_of_le_of_lt (shrinks.suffixAfter others).length_le (takes.length_lt first)

theorem Passable.stay : Passable fun way : Way α => [way] :=
  fun _ others _ _ => List.mem_singleton_self others

theorem Takes.passable (takes : Takes onward) : Passable onward :=
  fun _ _ leaves => absurd (takes.length_lt leaves) (Nat.lt_irrefl _)

theorem Passable.flatMap (passable : Passable onward) (passableNext : Passable next)
    (silent : Silent onward) (shrinks : Shrinks onward) (shrinksNext : Shrinks next) :
    Passable fun way => (onward way).flatMap next := by
  intro values others leaves longer
  rw [rests_flatMap silent, List.mem_flatMap] at leaves ⊢
  rcases leaves with ⟨middle, first, second⟩
  have whole : middle = values :=
    (shrinks.suffix first).eq_of_length_le (shrinksNext.suffix second).length_le
  subst whole
  exact ⟨others, passable _ others first longer, passableNext _ others second longer⟩

theorem Passable.repeatedFrom (passable : Passable unit) (shrinks : Shrinks unit) (greed : Greed)
    (minimum : Nat) : Passable (repeatedFrom [] unit greed minimum) := by
  intro values others leaves longer
  rw [mem_rests_repeatedFrom] at leaves ⊢
  rcases leaves with ⟨count, atLeast, atMost, after⟩
  refine ⟨count, atLeast, Nat.le_trans atMost longer, ?_⟩
  cases count with
  | zero => exact List.mem_singleton_self others
  | succ count =>
      apply restsAfter_of_rests
      exact passable values others (shrinks.rests_of_restsAfter after) longer

end

end Way

/-! ## Patterns that neither bind nor ask -/

def Named.Silent (matched : Named (Value α) → List (Named (Value α))) : Prop :=
  ∀ bound, matched bound = (matched []).map fun _ => bound

namespace Named.Silent

variable {matched next : Named (Value α) → List (Named (Value α))}

theorem flatMap (silent : Silent matched) (silentNext : Silent next) :
    Silent fun bound => (matched bound).flatMap next := by
  intro bound
  beta_reduce
  rw [silent bound, List.flatMap_map, silentNext bound, List.map_flatMap]
  conv_rhs => rw [silent [], List.flatMap_map]

theorem complete {onward : Way α → List (Way α)} (silent : Way.Silent onward)
    (values : List (Value α)) : Silent fun bound => Way.complete (onward ⟨bound, values⟩) := by
  intro bound
  beta_reduce
  rw [silent ⟨bound, values⟩, silent ⟨[], values⟩]
  simp only [Way.complete, List.filter_map, List.map_map]
  rfl

theorem ite (decides : Bool) : Silent fun bound : Named (Value α) =>
    if decides then [bound] else [] := by
  intro bound
  cases decides <;> rfl

end Named.Silent

namespace Pattern

structure Silent (pattern : Pattern α) : Prop where
  unbound : pattern.boundNames = []
  unconditional : pattern.holdsCondition = false

theorem Silent.part {pattern part : Pattern α} (silent : pattern.Silent)
    (member : part ∈ pattern.parts) : part.Silent := by
  rcases silent with ⟨unbound, unconditional⟩
  rw [boundNames_eq, List.append_eq_nil_iff, List.flatMap_eq_nil_iff] at unbound
  rw [holdsCondition_eq, Bool.or_eq_false_iff, List.any_eq_false] at unconditional
  exact ⟨unbound.2 part member, Bool.eq_false_iff.mpr (unconditional.2 part member)⟩

section Rows

variable {items : List (Pattern α)} (silent : ∀ item ∈ items, item.Silent)
include silent

theorem conditionsLast_of_silent : ConditionsLast items := by
  induction items with
  | nil => trivial
  | cons item items induction =>
      rcases List.forall_mem_cons.mp silent with ⟨silentItem, silentItems⟩
      refine ⟨fun holds => ?_, induction silentItems⟩
      rw [silentItem.unconditional] at holds
      cases holds

theorem any_holdsCondition_of_silent : items.any holdsCondition = false :=
  List.any_eq_false.mpr fun item member => Bool.eq_false_iff.mp (silent item member).unconditional

theorem boundNames_of_silent : items.flatMap boundNames = [] :=
  List.flatMap_eq_nil_iff.mpr fun item member => (silent item member).unbound

end Rows

section

variable [BEq α] (registry : Registry α) (greed : Greed)

theorem silent_allWays {operands : List (Pattern α)}
    (silent : ∀ operand ∈ operands, ∀ value, Named.Silent (operand.itemWays registry greed value))
    (value : Value α) : Named.Silent (allWays registry greed operands value) := by
  induction operands with
  | nil => exact fun _ => rfl
  | cons operand operands induction =>
      exact (silent operand List.mem_cons_self value).flatMap
        (induction fun other member => silent other (List.mem_cons_of_mem _ member))

theorem silent_entryWays {entries : List (Value α × Pattern α)}
    (silent : ∀ item ∈ entries.map Prod.snd, ∀ value,
      Named.Silent (item.itemWays registry greed value))
    (values : List (Value α)) : Named.Silent (entryWays registry greed entries values) := by
  induction entries generalizing values with
  | nil => cases values <;> exact fun _ => rfl
  | cons entry entries induction =>
      cases values with
      | nil => exact fun _ => rfl
      | cons value values =>
          exact (silent entry.2 List.mem_cons_self value).flatMap
            (induction (fun other member => silent other (List.mem_cons_of_mem _ member)) values)

theorem someWay_eq_of_silent {operands : List (Pattern α)}
    (silent : ∀ operand ∈ operands, ∀ value, Named.Silent (operand.itemWays registry greed value))
    (value : Value α) (bound : Named (Value α)) :
    someWay registry greed operands value bound = someWay registry greed operands value [] := by
  induction operands with
  | nil => rfl
  | cons operand operands induction =>
      rw [someWay, someWay, silent operand List.mem_cons_self value bound, List.isEmpty_map,
        induction fun other member => silent other (List.mem_cons_of_mem _ member)]

/-- Nothing is put back. -/
theorem shrinks_ways : Inductive (α := α)
    (fun pattern => Way.Shrinks (pattern.unitWays registry greed))
    (fun items => Way.Shrinks (rowWays registry greed items)) where
  whole pattern _ ofRow := by
    cases pattern with
    | sequence items => exact ofRow
    | _ => exact .single _
  nil := .stay
  repeated unit minimum order items ofUnit ofItems := by
    rw [rowWays_repeatedFrom]
    exact (ofUnit.repeatedFrom _ _ _).flatMap ofItems
  plain item items leads ofItem ofItems := by
    cases conditional : item.isCondition with
    | false =>
        rw [funext (rowWays_unit registry greed conditional leads)]
        exact ofItem.flatMap ofItems
    | true =>
        cases item with
        | condition accepts =>
            intro way later among
            rw [rowWays_plain _ _ leads] at among
            exact ofItems way later (List.mem_ite_nil_right.mp among).2
        | _ => cases conditional

mutual
def takesSome : Pattern α → Bool
  | sequence items => rowTakesSome items
  | condition _ => false
  | _ => true
termination_by structural pattern => pattern

def rowTakesSome : List (Pattern α) → Bool
  | [] => false
  | item :: repetition minimum _ :: items =>
    minimum != 0 && takesSome item || rowTakesSome items
  | item :: items => takesSome item || rowTakesSome items
termination_by structural items => items
end

omit [BEq α] in
theorem rowTakesSome_plain {item : Pattern α} {items : List (Pattern α)}
    (leads : repetitionLeads items = false) :
    rowTakesSome (item :: items) = (takesSome item || rowTakesSome items) := by
  cases items with
  | nil => rfl
  | cons next items =>
      cases next with
      | repetition minimum greed => cases leads
      | _ => rfl

theorem takes_ways : Inductive (α := α)
    (fun pattern => pattern.takesSome → Way.Takes (pattern.unitWays registry greed))
    (fun items => rowTakesSome items → Way.Takes (rowWays registry greed items)) where
  whole pattern _ ofRow takes := by
    cases pattern with
    | sequence items => exact ofRow takes
    | _ => exact .single _
  nil takes := by cases takes
  repeated unit minimum order items ofUnit ofItems takes := by
    have shrinks := (shrinks_ways registry greed).item unit
    have shrinksItems := (shrinks_ways registry greed).row items
    rw [rowWays_repeatedFrom]
    rw [rowTakesSome, Bool.or_eq_true, Bool.and_eq_true, bne_iff_ne] at takes
    rcases takes with ⟨some, takesUnit⟩ | takesItems
    · exact ((ofUnit takesUnit).repeatedFrom shrinks _ _ some).flatMap shrinksItems
    · exact (shrinks.repeatedFrom _ _ _).takes_flatMap (ofItems takesItems)
  plain item items leads ofItem ofItems takes := by
    have shrinks := (shrinks_ways registry greed).item item
    have shrinksItems := (shrinks_ways registry greed).row items
    rw [rowTakesSome_plain leads, Bool.or_eq_true] at takes
    cases conditional : item.isCondition with
    | false =>
        rw [funext (rowWays_unit registry greed conditional leads)]
        rcases takes with takesItem | takesItems
        · exact (ofItem takesItem).flatMap shrinksItems
        · exact shrinks.takes_flatMap (ofItems takesItems)
    | true =>
        cases item with
        | condition accepts =>
            intro way later among
            rw [rowWays_plain _ _ leads] at among
            rcases takes with takesItem | takesItems
            · cases takesItem
            · exact ofItems takesItems way later (List.mem_ite_nil_right.mp among).2
        | _ => cases conditional

/-- What neither binds nor asks is known by what it leaves. -/
theorem silent_ways : Inductive (α := α)
    (fun pattern => pattern.Silent →
      (∀ value, Named.Silent (pattern.itemWays registry greed value)) ∧
        Way.Silent (pattern.unitWays registry greed))
    (fun items => (∀ item ∈ items, item.Silent) → Way.Silent (rowWays registry greed items)) where
  whole pattern ofParts ofRow silent := by
    have row := ofRow fun part => silent.part
    have items : ∀ part ∈ pattern.parts, ∀ value,
        Named.Silent (part.itemWays registry greed value) :=
      fun part member => (ofParts part member (silent.part member)).1
    have ofValues : ∀ value, Named.Silent (pattern.itemWays registry greed value) := by
      intro value
      cases pattern with
      | literal expected => exact .ite _
      | compared expected accepts => exact .ite _
      | kind expected => exact .ite _
      | bind name => cases silent.unbound
      | wildcard => exact fun _ => rfl
      | deconstruct shape parts =>
          intro bound
          rw [itemWays, itemWays]
          split
          · exact Named.Silent.complete row _ bound
          · rfl
      | keyed shape entries =>
          intro bound
          rw [itemWays, itemWays]
          split
          · exact silent_entryWays registry greed items _ bound
          · rfl
      | and operands => exact silent_allWays registry greed items value
      | or operands =>
          intro bound
          have same : someWay registry greed operands value bound =
              someWay registry greed operands value [] :=
            someWay_eq_of_silent registry greed items value bound
          rw [itemWays, itemWays, same]
          exact Named.Silent.ite _ bound
      | not operands =>
          intro bound
          have same : someWay registry greed operands value bound =
              someWay registry greed operands value [] :=
            someWay_eq_of_silent registry greed items value bound
          rw [itemWays, itemWays, same]
          cases someWay registry greed operands value [] <;> rfl
      | _ => exact fun _ => rfl
    refine ⟨ofValues, ?_⟩
    cases pattern with
    | sequence items => exact row
    | _ => exact .single ofValues
  nil _ := .stay
  repeated unit minimum order items ofUnit ofItems silent := by
    rw [List.forall_mem_cons, List.forall_mem_cons] at silent
    rw [rowWays_repeatedFrom, silent.1.unbound]
    exact (Way.Silent.repeatedFrom _ _ minimum).flatMap (ofItems silent.2.2)
  plain item items leads ofItem ofItems silent := by
    rw [List.forall_mem_cons] at silent
    rw [funext (rowWays_unit registry greed (isCondition_eq_false silent.1.unconditional) leads)]
    exact (ofItem silent.1).2.flatMap (ofItems silent.2)

/-- Whatever may be left out may be left out before any longer row. -/
theorem passable_ways : Inductive (α := α)
    (fun pattern => pattern.Silent → Way.Passable (pattern.unitWays registry greed))
    (fun items => (∀ item ∈ items, item.Silent) →
      Way.Passable (rowWays registry greed items)) where
  whole pattern _ ofRow silent := by
    cases pattern with
    | sequence items => exact ofRow fun part => silent.part
    | _ => exact (Way.Takes.single _).passable
  nil _ := .stay
  repeated unit minimum order items ofUnit ofItems silent := by
    have shrinks := (shrinks_ways registry greed).item unit
    have shrinksItems := (shrinks_ways registry greed).row items
    rw [List.forall_mem_cons, List.forall_mem_cons] at silent
    rw [rowWays_repeatedFrom, silent.1.unbound]
    exact ((ofUnit silent.1).repeatedFrom shrinks _ minimum).flatMap (ofItems silent.2.2)
      (.repeatedFrom _ _ minimum) (shrinks.repeatedFrom _ _ minimum) shrinksItems
  plain item items leads ofItem ofItems silent := by
    have shrinks := (shrinks_ways registry greed).item item
    have shrinksItems := (shrinks_ways registry greed).row items
    rw [List.forall_mem_cons] at silent
    rw [funext (rowWays_unit registry greed (isCondition_eq_false silent.1.unconditional) leads)]
    exact (ofItem silent.1).flatMap (ofItems silent.2)
      ((silent_ways registry greed).item item silent.1).2 shrinks shrinksItems

end

end Pattern

end Destructure
