import Destructure.Proofs.Matching.PatternTurns
import Destructure.Proofs.Pattern.Renaming

/-!
The ways of a pattern whose names are changed. Only conditions look at names; without conditions the
ways are the same ones, with other names for what they bind.
-/

namespace Destructure

variable {α β : Type}

namespace Named

def renamed (change : String → String) (pairs : Named β) : Named β :=
  pairs.map fun pair => (change pair.1, pair.2)

theorem renamed_append (change : String → String) (pairs others : Named β) :
    renamed change (pairs ++ others) = renamed change pairs ++ renamed change others :=
  List.map_append

end Named

namespace Way

variable (change : String → String)

def renamed (way : Way α) : Way α := ⟨Named.renamed change way.bound, way.left⟩

def Renames (onward onward' : Way α → List (Way α)) : Prop :=
  ∀ way, onward' (way.renamed change) = (onward way).map (renamed change)

variable {change} {onward onward' next next' unit unit' : Way α → List (Way α)}

theorem Renames.flatMap (renames : Renames change onward onward')
    (renamesNext : Renames change next next') :
    Renames change (fun way => (onward way).flatMap next)
      (fun way => (onward' way).flatMap next') := by
  intro way
  beta_reduce
  rw [renames, List.flatMap_map, List.map_flatMap]
  congr 1
  funext later
  exact renamesNext later

theorem Renames.single {item item' : Value α → Named (Value α) → List (Named (Value α))}
    (renames : ∀ value bound, item' value (Named.renamed change bound) =
      (item value bound).map (Named.renamed change)) :
    Renames change (Way.single item) (Way.single item') := by
  rintro ⟨bound, _ | ⟨value, left⟩⟩
  · rfl
  · simp only [Way.single, renamed, renames, List.map_map]
    rfl

theorem complete_renamed (ways : List (Way α)) :
    complete (ways.map (renamed change)) = (complete ways).map (Named.renamed change) := by
  simp only [complete, List.filter_map, List.map_map]
  rfl

theorem Renames.passes (renames : Renames change unit unit') (count : Nat)
    (values : List (Value α)) :
    passes unit' count values =
      (passes unit count values).map fun passed =>
        (passed.1.map (Named.renamed change), passed.2) := by
  induction count generalizing values with
  | zero => rfl
  | succ count induction =>
      have first : unit' ⟨[], values⟩ = (unit ⟨[], values⟩).map (renamed change) :=
        renames ⟨[], values⟩
      rw [Way.passes, Way.passes, first, List.flatMap_map, List.map_flatMap]
      congr 1
      funext way
      rw [renamed, induction, List.map_map, List.map_map]
      rfl

theorem gather_renamed (names : List String) (passes : List (Named (Value α))) :
    gather (names.map change) (passes.map (Named.renamed change)) =
      Named.renamed change (gather names passes) := by
  induction names generalizing passes with
  | nil => rfl
  | cons name names induction =>
      have tails : (passes.map (Named.renamed change)).map List.tail =
          (passes.map List.tail).map (Named.renamed change) := by
        simp [Named.renamed, Function.comp_def]
      have heads : (passes.map (Named.renamed change)).filterMap
            (fun bound => bound.head?.map Prod.snd) =
          passes.filterMap fun bound => bound.head?.map Prod.snd := by
        simp [Named.renamed, List.filterMap_map, Function.comp_def]
      rw [List.map_cons, gather, tails, heads, induction]
      rfl

theorem Renames.repeatedFrom (renames : Renames change unit unit') (names : List String)
    (greed : Greed) (minimum : Nat) :
    Renames change (repeatedFrom names unit greed minimum)
      (repeatedFrom (names.map change) unit' greed minimum) := by
  intro way
  rw [Way.repeatedFrom, Way.repeatedFrom, List.map_flatMap]
  congr 1
  funext count
  rw [repeated, repeated, renamed, renames.passes, List.map_map, List.map_map]
  congr 1
  funext passed
  simp only [Function.comp_apply, renamed, Named.renamed_append, gather_renamed]

end Way

namespace Pattern

section

variable [BEq α] (registry : Registry α) (greed : Greed) (change : String → String)

def RenamesItem (pattern : Pattern α) : Prop :=
  ∀ value bound, (pattern.renamed change).itemWays registry greed value
      (Named.renamed change bound) =
    (pattern.itemWays registry greed value bound).map (Named.renamed change)

theorem allWays_renamed {operands : List (Pattern α)}
    (renames : ∀ operand ∈ operands, RenamesItem registry greed change operand) (value : Value α)
    (bound : Named (Value α)) :
    allWays registry greed (operands.map (renamed change)) value (Named.renamed change bound) =
      (allWays registry greed operands value bound).map (Named.renamed change) := by
  induction operands generalizing bound with
  | nil => rfl
  | cons operand operands induction =>
      rw [List.map_cons, allWays, allWays, renames operand List.mem_cons_self, List.flatMap_map,
        List.map_flatMap]
      congr 1
      funext later
      exact induction (fun other member => renames other (List.mem_cons_of_mem _ member)) later

theorem someWay_renamed {operands : List (Pattern α)}
    (renames : ∀ operand ∈ operands, RenamesItem registry greed change operand) (value : Value α)
    (bound : Named (Value α)) :
    someWay registry greed (operands.map (renamed change)) value (Named.renamed change bound) =
      someWay registry greed operands value bound := by
  induction operands with
  | nil => rfl
  | cons operand operands induction =>
      rw [List.map_cons, someWay, someWay, renames operand List.mem_cons_self, List.isEmpty_map,
        induction fun other member => renames other (List.mem_cons_of_mem _ member)]

theorem entryWays_renamed {entries : List (Value α × Pattern α)}
    (renames : ∀ item ∈ entries.map Prod.snd, RenamesItem registry greed change item)
    (values : List (Value α)) (bound : Named (Value α)) :
    entryWays registry greed (entries.map fun entry => (entry.1, entry.2.renamed change)) values
        (Named.renamed change bound) =
      (entryWays registry greed entries values bound).map (Named.renamed change) := by
  induction entries generalizing values bound with
  | nil => cases values <;> rfl
  | cons entry entries induction =>
      cases values with
      | nil => rfl
      | cons value values =>
          rw [List.map_cons, entryWays, entryWays, renames entry.2 List.mem_cons_self,
            List.flatMap_map, List.map_flatMap]
          congr 1
          funext later
          exact induction (fun other member => renames other (List.mem_cons_of_mem _ member))
            values later

theorem renamesItem_of_parts {pattern : Pattern α}
    (ofParts : ∀ part ∈ pattern.parts, RenamesItem registry greed change part)
    (ofRow : Way.Renames change (rowWays registry greed pattern.parts)
      (rowWays registry greed (pattern.parts.map (renamed change)))) :
    RenamesItem registry greed change pattern := by
  intro value bound
  cases pattern with
  | bind name => simp [renamed, itemWays, Named.renamed]
  | deconstruct shape items =>
      rw [renamed, allRenamed_eq, itemWays, itemWays]
      split
      · rw [← Way.complete_renamed]
        exact congrArg Way.complete (ofRow ⟨bound, _⟩)
      · rfl
  | keyed shape entries =>
      have keys : (entries.map fun entry => (entry.1, entry.2.renamed change)).map Prod.fst =
          entries.map Prod.fst := by simp
      rw [renamed, entriesRenamed_eq, itemWays, itemWays, keys]
      split
      · exact entryWays_renamed registry greed change ofParts _ bound
      · rfl
  | and operands =>
      rw [renamed, allRenamed_eq, itemWays, itemWays]
      exact allWays_renamed registry greed change ofParts value bound
  | or operands =>
      have matching : someWay registry greed (operands.map (renamed change)) value
          (Named.renamed change bound) = someWay registry greed operands value bound :=
        someWay_renamed registry greed change ofParts value bound
      rw [renamed, allRenamed_eq, itemWays, itemWays, matching]
      split <;> rfl
  | not operands =>
      have matching : someWay registry greed (operands.map (renamed change)) value
          (Named.renamed change bound) = someWay registry greed operands value bound :=
        someWay_renamed registry greed change ofParts value bound
      rw [renamed, allRenamed_eq, itemWays, itemWays, matching]
      split <;> rfl
  | literal expected =>
      rw [renamed, itemWays, itemWays]
      split <;> rfl
  | compared expected accepts =>
      rw [renamed, itemWays, itemWays]
      split <;> rfl
  | kind expected =>
      rw [renamed, itemWays, itemWays]
      split <;> rfl
  | _ => rfl

/-- Without conditions names have no part in matching. -/
theorem renames_ways : Inductive (α := α)
    (fun pattern => pattern.holdsCondition = false →
      RenamesItem registry greed change pattern ∧
      Way.Renames change (pattern.unitWays registry greed)
        ((pattern.renamed change).unitWays registry greed))
    (fun items => items.any holdsCondition = false →
      Way.Renames change (rowWays registry greed items)
        (rowWays registry greed (items.map (renamed change)))) where
  whole pattern ofParts ofRow unconditional := by
    rw [holdsCondition_eq, Bool.or_eq_false_iff] at unconditional
    have row := ofRow unconditional.2
    have ofValues : RenamesItem registry greed change pattern := by
      apply renamesItem_of_parts registry greed change _ row
      intro part member
      apply (ofParts part member _).1
      simpa using List.any_eq_false.mp unconditional.2 part member
    refine ⟨ofValues, ?_⟩
    cases pattern with
    | sequence items =>
        rw [renamed, allRenamed_eq]
        exact row
    | _ => exact .single ofValues
  nil _ way := rfl
  repeated unit minimum order items ofUnit ofItems unconditional := by
    rw [List.any_cons, List.any_cons, Bool.or_eq_false_iff, Bool.or_eq_false_iff] at unconditional
    rw [List.map_cons, List.map_cons, renamed, rowWays_repeatedFrom, rowWays_repeatedFrom,
      boundNames_renamed]
    exact ((ofUnit unconditional.1).2.repeatedFrom _ _ _).flatMap (ofItems unconditional.2.2)
  plain item items leads ofItem ofItems unconditional := by
    rw [List.any_cons, Bool.or_eq_false_iff] at unconditional
    have plain := isCondition_eq_false unconditional.1
    have plain' : (item.renamed change).isCondition = false := by rwa [isCondition_renamed]
    have leads' := leads
    rw [← repetitionLeads_renamed change] at leads'
    rw [List.map_cons, funext (rowWays_unit registry greed plain leads),
      funext (rowWays_unit registry greed plain' leads')]
    exact (ofItem unconditional.1).2.flatMap (ofItems unconditional.2)

end

end Pattern

end Destructure
