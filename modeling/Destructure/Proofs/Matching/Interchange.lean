import Destructure.Proofs.Matching.GreedIndependence
import Destructure.Proofs.Matching.PatternTurns
import Destructure.Proofs.Matching.Replacement

/-!
Patterns that may be interchanged wherever they stand. What two patterns offer may be compared more
or less closely, as long as what is offered around them then compares in the same way; so it is
enough to compare the items that are replaced.
-/

namespace Destructure

variable {α : Type}

/-- A way of comparing turns that goes through everything that turns are put together with. -/
structure Turns.Congruence (alike : ∀ {β : Type}, Turns α β → Turns α β → Prop) : Prop where
  refl : ∀ {β : Type} (turns : Turns α β), alike turns turns
  andThen : ∀ {β γ : Type} {turns turns' : Turns α β} {next next' : β → Turns α γ},
    alike turns turns' → (∀ outcome, alike (next outcome) (next' outcome)) →
      alike (Turns.andThen turns next) (Turns.andThen turns' next')
  repeated : ∀ {unit unit' : Way α → Turns α (Way α)}, (∀ way, alike (unit way) (unit' way)) →
    ∀ (names : List String) (counts : List Nat) (way : Way α),
      alike
        (Turns.quiet (counts.flatMap
          (Way.repeated names (fun way => Turns.outcomes (unit way)) way)))
        (Turns.quiet (counts.flatMap
          (Way.repeated names (fun way => Turns.outcomes (unit' way)) way)))
  /-- Whether there are outcomes is all that an alternative wants to know. -/
  isEmpty_eq : ∀ {β : Type} {turns turns' : Turns α β}, alike turns turns' →
    (Turns.outcomes turns).isEmpty = (Turns.outcomes turns').isEmpty

/-- Turns may be told apart in every respect. -/
theorem Turns.congruence_eq : Congruence fun {β : Type} (turns turns' : Turns α β) =>
    turns = turns' where
  refl _ := rfl
  andThen := by
    rintro β γ turns _ next next' rfl same
    rw [funext same]
  repeated := by
    intro unit unit' same names counts way
    rw [funext same]
  isEmpty_eq := by
    rintro β turns _ rfl
    rfl

/-- Or by nothing but their outcomes, in whatever order and number. -/
theorem Turns.congruence_listed : Congruence fun {β : Type} (turns turns' : Turns α β) =>
    Listed (outcomes turns) (outcomes turns') where
  refl turns := .refl _
  andThen := by
    intro β γ turns turns' next next' same sameNext
    rw [outcomes_andThen, outcomes_andThen]
    exact same.flatMap sameNext
  repeated := by
    intro unit unit' same names counts way
    rw [outcomes_quiet, outcomes_quiet]
    exact (Listed.refl counts).flatMap fun count => Way.listed_repeated names same way count
  isEmpty_eq same := same.isEmpty_eq

namespace Pattern

variable [BEq α] {alike : ∀ {β : Type}, Turns α β → Turns α β → Prop}

/-- Wherever the pattern stands, the other one offers what is alike. -/
structure Interchangeable (alike : ∀ {β : Type}, Turns α β → Turns α β → Prop)
    (registry : Registry α) (greed : Greed) (pattern pattern' : Pattern α) : Prop where
  resembles : Resembles pattern pattern'
  isCondition : pattern.isCondition = false
  isRepetition : pattern.isRepetition = false
  item : ∀ value bound,
    alike (pattern.itemTurns registry greed value bound)
      (pattern'.itemTurns registry greed value bound)
  unit : ∀ way,
    alike (pattern.unitTurns registry greed way) (pattern'.unitTurns registry greed way)

section

variable {registry : Registry α} {greed : Greed} {part part' : Pattern α}
variable (congruence : Turns.Congruence alike)
include congruence

omit [BEq α] in
theorem alike_singleTurns {item item' : Value α → Named (Value α) → Turns α (Named (Value α))}
    (same : ∀ value bound, alike (item value bound) (item' value bound)) (way : Way α) :
    alike (Way.singleTurns item way) (Way.singleTurns item' way) := by
  rcases way with ⟨bound, _ | ⟨value, left⟩⟩
  · exact congruence.refl _
  · exact congruence.andThen (same value bound) fun _ => congruence.refl _

omit [BEq α] in
theorem alike_completeTurns {turns turns' : Turns α (Way α)} (same : alike turns turns') :
    alike (Way.completeTurns turns) (Way.completeTurns turns') :=
  congruence.andThen same fun _ => congruence.refl _

namespace Interchangeable

variable (same : Interchangeable alike registry greed part part')
include same

theorem rowTurns (before after : List (Pattern α)) (way : Way α) :
    alike (Pattern.rowTurns registry greed (before ++ part :: after) way)
      (Pattern.rowTurns registry greed (before ++ part' :: after) way) := by
  have isCondition' := same.resembles.isCondition.trans same.isCondition
  have plain : repetitionLeads (part :: after) = false := same.isRepetition
  have plain' : repetitionLeads (part' :: after) = false :=
    same.resembles.isRepetition.trans same.isRepetition
  rw [rowTurns_append _ _ plain, rowTurns_append _ _ plain']
  apply congruence.andThen (congruence.refl _)
  intro later
  cases leads : repetitionLeads after with
  | false =>
      rw [rowTurns_unit _ _ same.isCondition leads, rowTurns_unit _ _ isCondition' leads]
      exact congruence.andThen (same.unit later) fun _ => congruence.refl _
  | true =>
      cases after with
      | nil => cases leads
      | cons next after =>
          cases next with
          | repetition minimum order =>
              rw [rowTurns_repeated, rowTurns_repeated, same.resembles.boundNames,
                ← funext ((outcomes_turns registry greed).item part).2,
                ← funext ((outcomes_turns registry greed).item part').2]
              exact congruence.andThen (congruence.repeated same.unit _ _ _) fun _ =>
                congruence.refl _
          | _ => cases leads

theorem allTurns (before after : List (Pattern α)) (value : Value α) (bound : Named (Value α)) :
    alike (Pattern.allTurns registry greed (before ++ part :: after) value bound)
      (Pattern.allTurns registry greed (before ++ part' :: after) value bound) := by
  induction before generalizing bound with
  | nil => exact congruence.andThen (same.item value bound) fun _ => congruence.refl _
  | cons operand before induction =>
      exact congruence.andThen (congruence.refl _) fun later => induction later

theorem someWay (before after : List (Pattern α)) (value : Value α) (bound : Named (Value α)) :
    Pattern.someWay registry greed (before ++ part :: after) value bound =
      Pattern.someWay registry greed (before ++ part' :: after) value bound := by
  have isEmpty := congruence.isEmpty_eq (same.item value bound)
  rw [((outcomes_turns registry greed).item part).1,
    ((outcomes_turns registry greed).item part').1] at isEmpty
  induction before with
  | nil => rw [List.nil_append, List.nil_append, Pattern.someWay, Pattern.someWay, isEmpty]
  | cons operand before induction =>
      rw [List.cons_append, List.cons_append, Pattern.someWay, Pattern.someWay, induction]

theorem itemTurns {node : Pattern α} {before after : List (Pattern α)} (wellMade : node.WellMade)
    (split : node.parts = before ++ part :: after) (value : Value α) (bound : Named (Value α)) :
    alike (node.itemTurns registry greed value bound)
      ((node.withParts (before ++ part' :: after)).itemTurns registry greed value bound) := by
  have wellMade' := wellMade.inside same.resembles split
  cases node with
  | deconstruct shape items =>
      obtain rfl : items = before ++ part :: after := split
      rw [withParts, Pattern.itemTurns, Pattern.itemTurns]
      split
      · exact alike_completeTurns congruence (same.rowTurns congruence before after _)
      · exact congruence.refl _
  | keyed shape entries =>
      have keys : (((entries.map Prod.fst).zip (before ++ part' :: after)).map Prod.fst) =
          entries.map Prod.fst := by
        apply List.map_fst_zip
        have length := congrArg List.length split
        simp only [parts, List.length_map] at length
        simp [length]
      have values : ((entries.map Prod.fst).zip (before ++ part' :: after)).map Prod.snd =
          before ++ part' :: after := parts_withParts_inside split part'
      rw [withParts, Pattern.itemTurns, Pattern.itemTurns, keys]
      cases shape.lookup? (entries.map Prod.fst) value with
      | none => exact congruence.refl _
      | some found =>
          simp only
          rw [← complete_rowTurns_entries _ _ (wellMade.placed.alone rfl),
            ← complete_rowTurns_entries _ _ (wellMade'.placed.alone rfl), values]
          apply alike_completeTurns congruence
          change alike (Pattern.rowTurns _ _ (keyed shape entries).parts _) _
          rw [split]
          exact same.rowTurns congruence before after _
  | and operands =>
      obtain rfl : operands = before ++ part :: after := split
      exact same.allTurns congruence before after value bound
  | or operands =>
      obtain rfl : operands = before ++ part :: after := split
      rw [withParts, itemTurns_of_isAlternative _ _ rfl, itemTurns_of_isAlternative _ _ rfl,
        itemWays, itemWays, same.someWay congruence]
      exact congruence.refl _
  | not operands =>
      obtain rfl : operands = before ++ part :: after := split
      rw [withParts, itemTurns_of_isAlternative _ _ rfl, itemTurns_of_isAlternative _ _ rfl,
        itemWays, itemWays, same.someWay congruence]
      exact congruence.refl _
  | _ => exact congruence.refl _

/-- Nothing around a pattern notices that it has been replaced. -/
theorem inside {node : Pattern α} {before after : List (Pattern α)} (wellMade : node.WellMade)
    (split : node.parts = before ++ part :: after) :
    Interchangeable alike registry greed node (node.withParts (before ++ part' :: after)) := by
  have items := same.itemTurns congruence wellMade split
  refine ⟨same.resembles.inside split, ?_, ?_, items, ?_⟩
  · cases node with
    | condition accepts => simp [parts] at split
    | _ => rfl
  · cases node with
    | repetition minimum order => simp [parts] at split
    | _ => rfl
  · intro way
    cases node with
    | sequence inner =>
        obtain rfl : inner = before ++ part :: after := split
        exact same.rowTurns congruence before after way
    | _ => exact alike_singleTurns congruence items way

end Interchangeable

/-- Where items are replaced by others that offer what is alike, so does the whole pattern. -/
theorem Somewhere.interchangeable {change : List (Pattern α) → List (Pattern α) → Prop}
    {pattern pattern' : Pattern α} (somewhere : Somewhere change pattern pattern')
    (replaces : ∀ (node : Pattern α) parts, node.Made → change node.parts parts →
      node.holdsItems ∧ Replaces node.parts parts)
    (offers : ∀ (node : Pattern α) parts, node.Made → change node.parts parts →
      ∀ way, alike (rowTurns registry greed node.parts way) (rowTurns registry greed parts way))
    (made : pattern.Made) : Interchangeable alike registry greed pattern pattern' := by
  have resembles := (somewhere.made replaces made).2.1
  induction somewhere with
  | @here node parts changed =>
      have same := offers node parts made changed
      cases node with
      | deconstruct shape items =>
          have ofValues : ∀ value bound,
              alike ((deconstruct shape items).itemTurns registry greed value bound)
                (((deconstruct shape items).withParts parts).itemTurns registry greed value
                  bound) := by
            intro value bound
            rw [withParts, Pattern.itemTurns, Pattern.itemTurns]
            split
            · exact alike_completeTurns congruence (same _)
            · exact congruence.refl _
          exact ⟨resembles, rfl, rfl, ofValues, alike_singleTurns congruence ofValues⟩
      | sequence items => exact ⟨resembles, rfl, rfl, fun _ _ => congruence.refl _, same⟩
      | _ => cases (replaces _ parts made changed).1
  | @inside node part part' before after split below induction =>
      rcases (made_iff node).mp made with ⟨wellMade, madeParts⟩
      have madePart : part.Made := by
        apply madeParts
        simp [split]
      exact (induction madePart (below.made replaces madePart).2.1).inside congruence wellMade split

end

end Pattern

end Destructure
