import Destructure.Decomposition.Registry
import Destructure.Proofs.Pattern.Names
import Destructure.Proofs.Pattern.Numbering

/-!
What a pattern means, without a search: the ways in which it matches, in order. Ways are given by
recursion on the pattern as it is written. Nothing is numbered, recorded or taken back; a way is
what has been bound so far, place by place, and the values that are left.
-/

namespace Destructure

variable {α : Type}

structure Way (α : Type) where
  bound : Named (Value α)
  left : List (Value α)

namespace Way

def single (item : Value α → Named (Value α) → List (Named (Value α))) (way : Way α) :
    List (Way α) :=
  match way.left with
  | [] => []
  | value :: left => (item value way.bound).map fun bound => ⟨bound, left⟩

def complete (ways : List (Way α)) : List (Named (Value α)) :=
  (ways.filter fun way => way.left.isEmpty).map Way.bound

theorem single_cons (item : Value α → Named (Value α) → List (Named (Value α))) (value : Value α)
    (left : List (Value α)) (bound : Named (Value α)) :
    single item ⟨bound, value :: left⟩ = (item value bound).map fun bound => ⟨bound, left⟩ := rfl

theorem complete_eq (ways : List (Way α)) :
    complete ways = ways.flatMap fun way => if way.left.isEmpty then [way.bound] else [] := by
  induction ways with
  | nil => rfl
  | cons way ways induction =>
      rw [List.flatMap_cons, ← induction, complete, complete, List.filter_cons]
      split <;> rfl

def passes (unit : Way α → List (Way α)) :
    Nat → List (Value α) → List (List (Named (Value α)) × List (Value α))
  | 0, values => [([], values)]
  | count + 1, values =>
    (unit ⟨[], values⟩).flatMap fun way =>
      (passes unit count way.left).map fun (others, left) => (way.bound :: others, left)

/-- What passes bind together: under each name the list of what they bind there. -/
def gather : List String → List (Named (Value α)) → Named (Value α)
  | [], _ => []
  | name :: names, passes =>
    (name, .list (passes.filterMap fun bound => bound.head?.map Prod.snd)) ::
      gather names (passes.map List.tail)

def repeated (names : List String) (unit : Way α → List (Way α)) (way : Way α) (count : Nat) :
    List (Way α) :=
  (passes unit count way.left).map fun (passes, left) =>
    ⟨way.bound ++ gather names passes, left⟩

/-- The ways of a unit that is repeated so many times or more, in the order of its greed. -/
def repeatedFrom (names : List String) (unit : Way α → List (Way α)) (greed : Greed)
    (minimum : Nat) (way : Way α) : List (Way α) :=
  (greed.counts minimum way.left.length).flatMap (repeated names unit way)

end Way

namespace Pattern

mutual
def rowWays [BEq α] (registry : Registry α) (defaultGreed : Greed) :
    List (Pattern α) → Way α → List (Way α)
  | [], way => [way]
  | item :: repetition minimum greed :: items, way =>
    let unit :=
      if item.isSequence then sequenceWays registry defaultGreed item
      else Way.single (itemWays registry defaultGreed item)
    ((greed.getD defaultGreed).counts minimum way.left.length).flatMap fun count =>
      (Way.repeated item.boundNames unit way count).flatMap (rowWays registry defaultGreed items)
  | item :: items, way =>
    match item with
    | condition accepts =>
      if way.left.isEmpty && accepts ⟨Named.firsts way.bound⟩ then
        rowWays registry defaultGreed items way
      else []
    | repetition _ _ => []
    | sequence _ =>
      (sequenceWays registry defaultGreed item way).flatMap (rowWays registry defaultGreed items)
    | _ =>
      (Way.single (itemWays registry defaultGreed item) way).flatMap
        (rowWays registry defaultGreed items)
termination_by structural items => items

def sequenceWays [BEq α] (registry : Registry α) (defaultGreed : Greed) :
    Pattern α → Way α → List (Way α)
  | sequence items, way => rowWays registry defaultGreed items way
  | _, _ => []
termination_by structural item => item

/-- What is bound after a single value has been matched, for each way to match it. -/
def itemWays [BEq α] (registry : Registry α) (defaultGreed : Greed) :
    Pattern α → Value α → Named (Value α) → List (Named (Value α))
  | literal expected, value, bound => if expected == value then [bound] else []
  | compared expected accepts, value, bound => if accepts expected value then [bound] else []
  | kind expected, value, bound => if expected.accepts value then [bound] else []
  | bind name, value, bound => [bound ++ [(name, value)]]
  | wildcard, _, bound => [bound]
  | deconstruct shape items, value, bound =>
    match registry.decompose shape value with
    | .ok (some parts) => Way.complete (rowWays registry defaultGreed items ⟨bound, parts⟩)
    | _ => []
  | keyed shape entries, value, bound =>
    match shape.lookup? (entries.map Prod.fst) value with
    | some parts => entryWays registry defaultGreed entries parts bound
    | none => []
  | and operands, value, bound => allWays registry defaultGreed operands value bound
  | or operands, value, bound =>
    if someWay registry defaultGreed operands value bound then [bound] else []
  | not operands, value, bound =>
    if someWay registry defaultGreed operands value bound then [] else [bound]
  | sequence _, _, _ | repetition _ _, _, _ | condition _, _, _ => []
termination_by structural item => item

def entryWays [BEq α] (registry : Registry α) (defaultGreed : Greed) :
    List (Value α × Pattern α) → List (Value α) → Named (Value α) → List (Named (Value α))
  | [], [], bound => [bound]
  | (_, item) :: entries, value :: values, bound =>
    (itemWays registry defaultGreed item value bound).flatMap
      (entryWays registry defaultGreed entries values)
  | _, _, _ => []
termination_by structural entries => entries

def allWays [BEq α] (registry : Registry α) (defaultGreed : Greed) :
    List (Pattern α) → Value α → Named (Value α) → List (Named (Value α))
  | [], _, bound => [bound]
  | operand :: operands, value, bound =>
    (itemWays registry defaultGreed operand value bound).flatMap
      (allWays registry defaultGreed operands value)
termination_by structural operands => operands

def someWay [BEq α] (registry : Registry α) (defaultGreed : Greed) :
    List (Pattern α) → Value α → Named (Value α) → Bool
  | [], _, _ => false
  | operand :: operands, value, bound =>
    !(itemWays registry defaultGreed operand value bound).isEmpty ||
      someWay registry defaultGreed operands value bound
termination_by structural operands => operands
end

/-- The bindings of all ways to match a value, in order: those that leave nothing and in which
equal names are bound to equal values. -/
def solutions [BEq α] (pattern : Pattern α) (registry : Registry α) (options : Options)
    (value : Value α) : List (Bindings α) :=
  ((Way.complete (rowWays registry options.defaultGreed [pattern] ⟨[], [value]⟩)).filter
    Named.agree).map fun bound => ⟨Named.firsts bound⟩

theorem rowWays_plain [BEq α] (registry : Registry α) (defaultGreed : Greed) {item : Pattern α}
    {items : List (Pattern α)} (leads : repetitionLeads items = false) (way : Way α) :
    rowWays registry defaultGreed (item :: items) way =
      match item with
      | condition accepts =>
        if way.left.isEmpty && accepts ⟨Named.firsts way.bound⟩ then
          rowWays registry defaultGreed items way
        else []
      | repetition _ _ => []
      | sequence _ =>
        (sequenceWays registry defaultGreed item way).flatMap (rowWays registry defaultGreed items)
      | _ =>
        (Way.single (itemWays registry defaultGreed item) way).flatMap
          (rowWays registry defaultGreed items) := by
  cases items with
  | nil => rfl
  | cons next items =>
      cases next with
      | repetition minimum greed => cases leads
      | _ => rfl

def unitWays [BEq α] (registry : Registry α) (greed : Greed) (item : Pattern α) :
    Way α → List (Way α) :=
  if item.isSequence then sequenceWays registry greed item
  else Way.single (itemWays registry greed item)

theorem rowWays_repeated [BEq α] (registry : Registry α) (defaultGreed : Greed) (unit : Pattern α)
    (minimum : Nat) (greed : Option Greed) (items : List (Pattern α)) (way : Way α) :
    rowWays registry defaultGreed (unit :: repetition minimum greed :: items) way =
      (((greed.getD defaultGreed).counts minimum way.left.length).flatMap
        (Way.repeated unit.boundNames (unit.unitWays registry defaultGreed) way)).flatMap
          (rowWays registry defaultGreed items) := by
  rw [rowWays, List.flatMap_assoc]
  rfl

theorem rowWays_repeatedFrom [BEq α] {registry : Registry α} {defaultGreed : Greed}
    {unit : Pattern α} {minimum : Nat} {greed : Option Greed} {items : List (Pattern α)} :
    rowWays registry defaultGreed (unit :: repetition minimum greed :: items) = fun way =>
      (Way.repeatedFrom unit.boundNames (unit.unitWays registry defaultGreed)
        (greed.getD defaultGreed) minimum way).flatMap (rowWays registry defaultGreed items) :=
  funext (rowWays_repeated registry defaultGreed unit minimum greed items)

theorem rowWays_unit [BEq α] (registry : Registry α) (defaultGreed : Greed) {item : Pattern α}
    (plain : item.isCondition = false) {items : List (Pattern α)}
    (leads : repetitionLeads items = false) (way : Way α) :
    rowWays registry defaultGreed (item :: items) way =
      (item.unitWays registry defaultGreed way).flatMap (rowWays registry defaultGreed items) := by
  rw [rowWays_plain registry defaultGreed leads]
  cases item with
  | repetition minimum order => rcases way with ⟨bound, _ | ⟨value, left⟩⟩ <;> rfl
  | condition accepts => cases plain
  | _ => rfl

theorem someWay_eq [BEq α] (registry : Registry α) (defaultGreed : Greed)
    (operands : List (Pattern α)) (value : Value α) (bound : Named (Value α)) :
    someWay registry defaultGreed operands value bound =
      !(operands.flatMap fun operand =>
        itemWays registry defaultGreed operand value bound).isEmpty := by
  induction operands with
  | nil => rfl
  | cons operand operands induction =>
      rw [someWay, induction, List.flatMap_cons]
      cases itemWays registry defaultGreed operand value bound <;> rfl

/-- Entries that stand by themselves are the items of a row. -/
theorem complete_rowWays_entries [BEq α] (registry : Registry α) (defaultGreed : Greed)
    {entries : List (Value α × Pattern α)}
    (alone : ∀ item ∈ entries.map Prod.snd, item.takesValue) (values : List (Value α))
    (bound : Named (Value α)) :
    Way.complete (rowWays registry defaultGreed (entries.map Prod.snd) ⟨bound, values⟩) =
      entryWays registry defaultGreed entries values bound := by
  induction entries generalizing values bound with
  | nil => cases values <;> rfl
  | cons entry entries induction =>
      rcases entry with ⟨key, item⟩
      have takes := alone item List.mem_cons_self
      have takesOthers : ∀ other ∈ entries.map Prod.snd, other.takesValue :=
        fun other member => alone other (List.mem_cons_of_mem _ member)
      have leads := repetitionLeads_of_takesValue takesOthers
      have taken : Way.complete ((Way.single (itemWays registry defaultGreed item)
          ⟨bound, values⟩).flatMap (rowWays registry defaultGreed (entries.map Prod.snd))) =
            entryWays registry defaultGreed ((key, item) :: entries) values bound := by
        cases values with
        | nil => rfl
        | cons value left =>
            rw [Way.single_cons, Way.complete_eq, List.flatMap_assoc, List.flatMap_map, entryWays]
            congr 1
            funext later
            rw [← Way.complete_eq, induction takesOthers]
      rw [List.map_cons, rowWays_plain registry defaultGreed leads]
      cases item with
      | repetition minimum greed => cases takes
      | sequence items => cases takes
      | condition accepts => cases takes
      | _ => exact taken

end Pattern

end Destructure
