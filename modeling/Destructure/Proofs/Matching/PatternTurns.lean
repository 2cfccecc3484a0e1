import Destructure.Proofs.Matching.Turns
import Destructure.Proofs.Matching.Ways
import Destructure.Proofs.Pattern.Placement

/-!
The turns of a pattern as it is written: its ways, in order, together with what its conditions are
asked on the way to them. Alternatives and what is repeated hold no conditions and are passed
without a question, so there the ways are all there is to tell.
-/

namespace Destructure

variable {α : Type}

namespace Turns

variable {β γ : Type}

def quiet (outcomes : List β) : Turns α β := outcomes.map .reached

@[simp] theorem outcomes_quiet (listed : List β) :
    outcomes (quiet listed : Turns α β) = listed := by
  induction listed with
  | nil => rfl
  | cons item items induction => exact congrArg (item :: ·) induction

theorem questions_quiet (listed : List β) : questions (quiet listed : Turns α β) = [] := by
  induction listed with
  | nil => rfl
  | cons item items induction => exact induction

/-- Where nothing is asked there is nothing but the outcomes. -/
theorem eq_quiet {turns : Turns α β} (unasked : questions turns = []) :
    turns = quiet (outcomes turns) := by
  induction turns with
  | nil => rfl
  | cons turn turns induction =>
      cases turn with
      | asked consultation => cases unasked
      | reached outcome => exact congrArg (.reached outcome :: ·) (induction unasked)

theorem questions_andThen_eq_nil {turns : Turns α β} {next : β → Turns α γ}
    (unasked : questions turns = []) (unaskedNext : ∀ outcome, questions (next outcome) = []) :
    questions (andThen turns next) = [] := by
  rw [List.eq_nil_iff_forall_not_mem] at unasked ⊢
  apply forall_questions_andThen unasked
  intro outcome _
  rw [unaskedNext outcome]
  exact fun question => List.not_mem_nil

end Turns

namespace Way

def singleTurns (item : Value α → Named (Value α) → Turns α (Named (Value α))) (way : Way α) :
    Turns α (Way α) :=
  match way.left with
  | [] => []
  | value :: left => Turns.andThen (item value way.bound) fun bound => [.reached ⟨bound, left⟩]

def completeTurns (turns : Turns α (Way α)) : Turns α (Named (Value α)) :=
  Turns.andThen turns fun way => if way.left.isEmpty then [.reached way.bound] else []

theorem outcomes_singleTurns {turns : Value α → Named (Value α) → Turns α (Named (Value α))}
    {ways : Value α → Named (Value α) → List (Named (Value α))}
    (outcomes : ∀ value bound, Turns.outcomes (turns value bound) = ways value bound)
    (way : Way α) : Turns.outcomes (singleTurns turns way) = single ways way := by
  rcases way with ⟨bound, _ | ⟨value, left⟩⟩
  · rfl
  · rw [single_cons, singleTurns, Turns.outcomes_andThen, outcomes, List.map_eq_flatMap]
    rfl

theorem outcomes_completeTurns (turns : Turns α (Way α)) :
    Turns.outcomes (completeTurns turns) = complete (Turns.outcomes turns) := by
  rw [completeTurns, Turns.outcomes_andThen, complete_eq]
  congr 1
  funext way
  split <;> rfl

theorem questions_singleTurns {turns : Value α → Named (Value α) → Turns α (Named (Value α))}
    (unasked : ∀ value bound, Turns.questions (turns value bound) = []) (way : Way α) :
    Turns.questions (singleTurns turns way) = [] := by
  rcases way with ⟨bound, _ | ⟨value, left⟩⟩
  · rfl
  · exact Turns.questions_andThen_eq_nil (unasked value bound) fun _ => rfl

theorem questions_completeTurns {turns : Turns α (Way α)} (unasked : Turns.questions turns = []) :
    Turns.questions (completeTurns turns) = [] := by
  apply Turns.questions_andThen_eq_nil unasked
  intro way
  split <;> rfl

theorem completeTurns_quiet (ways : List (Way α)) :
    completeTurns (Turns.quiet ways) = Turns.quiet (complete ways) := by
  rw [Turns.eq_quiet (questions_completeTurns (Turns.questions_quiet ways)),
    outcomes_completeTurns, Turns.outcomes_quiet]

end Way

namespace Pattern

mutual
def rowTurns [BEq α] (registry : Registry α) (defaultGreed : Greed) :
    List (Pattern α) → Way α → Turns α (Way α)
  | [], way => [.reached way]
  | unit :: repetition minimum greed :: items, way =>
    Turns.andThen
      (Turns.quiet (((greed.getD defaultGreed).counts minimum way.left.length).flatMap
        (Way.repeated unit.boundNames (unit.unitWays registry defaultGreed) way)))
      (rowTurns registry defaultGreed items)
  | item :: items, way =>
    match item with
    | condition accepts =>
      if !way.left.isEmpty then []
      else
        let bindings : Bindings α := ⟨Named.firsts way.bound⟩
        .asked ⟨.condition, bindings, accepts bindings⟩ ::
          if accepts bindings then rowTurns registry defaultGreed items way else []
    | repetition _ _ => []
    | sequence _ =>
      Turns.andThen (sequenceTurns registry defaultGreed item way)
        (rowTurns registry defaultGreed items)
    | _ =>
      Turns.andThen (Way.singleTurns (itemTurns registry defaultGreed item) way)
        (rowTurns registry defaultGreed items)
termination_by structural items => items

def sequenceTurns [BEq α] (registry : Registry α) (defaultGreed : Greed) :
    Pattern α → Way α → Turns α (Way α)
  | sequence items, way => rowTurns registry defaultGreed items way
  | _, _ => []
termination_by structural item => item

def itemTurns [BEq α] (registry : Registry α) (defaultGreed : Greed) :
    Pattern α → Value α → Named (Value α) → Turns α (Named (Value α))
  | deconstruct shape items, value, bound =>
    match registry.decompose shape value with
    | .ok (some parts) => Way.completeTurns (rowTurns registry defaultGreed items ⟨bound, parts⟩)
    | _ => []
  | keyed shape entries, value, bound =>
    match shape.lookup? (entries.map Prod.fst) value with
    | some parts => entryTurns registry defaultGreed entries parts bound
    | none => []
  | and operands, value, bound => allTurns registry defaultGreed operands value bound
  | item, value, bound => Turns.quiet (item.itemWays registry defaultGreed value bound)
termination_by structural item => item

def entryTurns [BEq α] (registry : Registry α) (defaultGreed : Greed) :
    List (Value α × Pattern α) → List (Value α) → Named (Value α) → Turns α (Named (Value α))
  | [], [], bound => [.reached bound]
  | (_, item) :: entries, value :: values, bound =>
    Turns.andThen (itemTurns registry defaultGreed item value bound)
      (entryTurns registry defaultGreed entries values)
  | _, _, _ => []
termination_by structural entries => entries

def allTurns [BEq α] (registry : Registry α) (defaultGreed : Greed) :
    List (Pattern α) → Value α → Named (Value α) → Turns α (Named (Value α))
  | [], _, bound => [.reached bound]
  | operand :: operands, value, bound =>
    Turns.andThen (itemTurns registry defaultGreed operand value bound)
      (allTurns registry defaultGreed operands value)
termination_by structural operands => operands
end

section

variable [BEq α] (registry : Registry α) (defaultGreed : Greed)

def unitTurns (item : Pattern α) : Way α → Turns α (Way α) :=
  if item.isSequence then sequenceTurns registry defaultGreed item
  else Way.singleTurns (itemTurns registry defaultGreed item)

theorem itemTurns_of_isAlternative {pattern : Pattern α} (alternative : pattern.isAlternative)
    (value : Value α) (bound : Named (Value α)) :
    pattern.itemTurns registry defaultGreed value bound =
      Turns.quiet (pattern.itemWays registry defaultGreed value bound) := by
  cases pattern with
  | or operands => rfl
  | not operands => rfl
  | _ => cases alternative

theorem rowTurns_repeated (unit : Pattern α) (minimum : Nat) (greed : Option Greed)
    (items : List (Pattern α)) (way : Way α) :
    rowTurns registry defaultGreed (unit :: repetition minimum greed :: items) way =
      Turns.andThen
        (Turns.quiet (((greed.getD defaultGreed).counts minimum way.left.length).flatMap
          (Way.repeated unit.boundNames (unit.unitWays registry defaultGreed) way)))
        (rowTurns registry defaultGreed items) := by
  rw [rowTurns]

theorem rowTurns_condition (accepts : Bindings α → Bool) {items : List (Pattern α)}
    (leads : repetitionLeads items = false) (way : Way α) :
    rowTurns registry defaultGreed (condition accepts :: items) way =
      if !way.left.isEmpty then []
      else
        .asked ⟨.condition, ⟨Named.firsts way.bound⟩, accepts ⟨Named.firsts way.bound⟩⟩ ::
          if accepts ⟨Named.firsts way.bound⟩ then rowTurns registry defaultGreed items way
          else [] := by
  cases items with
  | nil => rfl
  | cons next items =>
      cases next with
      | repetition minimum greed => cases leads
      | _ => rfl

theorem rowTurns_unit {item : Pattern α} (plain : item.isCondition = false)
    {items : List (Pattern α)} (leads : repetitionLeads items = false) (way : Way α) :
    rowTurns registry defaultGreed (item :: items) way =
      Turns.andThen (item.unitTurns registry defaultGreed way)
        (rowTurns registry defaultGreed items) := by
  rcases way with ⟨bound, _ | ⟨value, left⟩⟩ <;> cases items with
  | nil =>
      cases item with
      | condition accepts => cases plain
      | _ => rfl
  | cons next items =>
      cases next with
      | repetition minimum greed => cases leads
      | _ =>
          cases item with
          | condition accepts => cases plain
          | _ => rfl

/-- A row may be cut wherever no repetition is cut off from its unit. -/
theorem rowTurns_append {second : List (Pattern α)} (leads : repetitionLeads second = false)
    (first : List (Pattern α)) (way : Way α) :
    rowTurns registry defaultGreed (first ++ second) way =
      Turns.andThen (rowTurns registry defaultGreed first way)
        (rowTurns registry defaultGreed second) := by
  have steps : Inductive (α := α) (fun _ => True) fun first => ∀ way,
      rowTurns registry defaultGreed (first ++ second) way =
        Turns.andThen (rowTurns registry defaultGreed first way)
          (rowTurns registry defaultGreed second) := by
    refine ⟨fun _ _ _ => trivial, ?_, ?_, ?_⟩
    · intro way
      simp [rowTurns]
    · intro unit minimum greed items _ ofItems way
      rw [List.cons_append, List.cons_append, rowTurns_repeated, rowTurns_repeated,
        Turns.andThen_assoc, funext ofItems]
    · intro item items leadsItems _ ofItems way
      have leadsBoth : repetitionLeads (items ++ second) = false := by
        cases items with
        | nil => exact leads
        | cons next items => exact leadsItems
      rw [List.cons_append]
      cases conditional : item.isCondition with
      | false =>
          rw [rowTurns_unit _ _ conditional leadsBoth, rowTurns_unit _ _ conditional leadsItems,
            Turns.andThen_assoc, funext ofItems]
      | true =>
          cases item with
          | condition accepts =>
              rw [rowTurns_condition _ _ _ leadsBoth, rowTurns_condition _ _ _ leadsItems, ofItems]
              split
              · rfl
              · split <;> rfl
          | _ => cases conditional
  exact steps.row first way

/-- Entries that stand by themselves are the items of a row. -/
theorem complete_rowTurns_entries {entries : List (Value α × Pattern α)}
    (alone : ∀ item ∈ entries.map Prod.snd, item.takesValue) (values : List (Value α))
    (bound : Named (Value α)) :
    Way.completeTurns
        (rowTurns registry defaultGreed (entries.map Prod.snd) ⟨bound, values⟩) =
      entryTurns registry defaultGreed entries values bound := by
  induction entries generalizing values bound with
  | nil => cases values <;> rfl
  | cons entry entries induction =>
      rcases List.forall_mem_cons.mp alone with ⟨takes, takesOthers⟩
      rcases plain_of_takesValue takes with ⟨-, isSequence, isCondition⟩
      rw [List.map_cons, rowTurns_unit _ _ isCondition (repetitionLeads_of_takesValue takesOthers),
        unitTurns, isSequence]
      cases values with
      | nil => rfl
      | cons value left =>
          simp only [Bool.false_eq_true, if_false, Way.completeTurns, Way.singleTurns,
            Turns.andThen_assoc, Turns.andThen_reached, Turns.andThen_nil, List.append_nil] at *
          rw [entryTurns]
          congr 1
          funext later
          exact induction takesOthers left later

/-! ## Turns and ways -/

variable {registry defaultGreed}

theorem outcomes_entryTurns {entries : List (Value α × Pattern α)}
    (ofItems : ∀ item ∈ entries.map Prod.snd, ∀ value bound,
      Turns.outcomes (itemTurns registry defaultGreed item value bound) =
        itemWays registry defaultGreed item value bound)
    (values : List (Value α)) (bound : Named (Value α)) :
    Turns.outcomes (entryTurns registry defaultGreed entries values bound) =
      entryWays registry defaultGreed entries values bound := by
  induction entries generalizing values bound with
  | nil => cases values <;> rfl
  | cons entry entries induction =>
      cases values with
      | nil => rfl
      | cons value values =>
          rw [entryTurns, Turns.outcomes_andThen, entryWays, ofItems entry.2 List.mem_cons_self]
          congr 1
          funext later
          exact induction (fun item member => ofItems item (List.mem_cons_of_mem _ member)) _ _

theorem outcomes_allTurns {operands : List (Pattern α)}
    (ofOperands : ∀ operand ∈ operands, ∀ value bound,
      Turns.outcomes (itemTurns registry defaultGreed operand value bound) =
        itemWays registry defaultGreed operand value bound)
    (value : Value α) (bound : Named (Value α)) :
    Turns.outcomes (allTurns registry defaultGreed operands value bound) =
      allWays registry defaultGreed operands value bound := by
  induction operands generalizing bound with
  | nil => rfl
  | cons operand operands induction =>
      rw [allTurns, Turns.outcomes_andThen, allWays, ofOperands operand List.mem_cons_self]
      congr 1
      funext later
      exact induction (fun other member => ofOperands other (List.mem_cons_of_mem _ member)) _

variable (registry defaultGreed)

/-- The outcomes of a pattern are its ways. -/
theorem outcomes_turns : Inductive (α := α)
    (fun pattern =>
      (∀ value bound, Turns.outcomes (pattern.itemTurns registry defaultGreed value bound) =
        pattern.itemWays registry defaultGreed value bound) ∧
      ∀ way, Turns.outcomes (pattern.unitTurns registry defaultGreed way) =
        pattern.unitWays registry defaultGreed way)
    (fun items => ∀ way, Turns.outcomes (rowTurns registry defaultGreed items way) =
      rowWays registry defaultGreed items way) where
  whole pattern ofParts ofRow := by
    have ofValues : ∀ value bound,
        Turns.outcomes (pattern.itemTurns registry defaultGreed value bound) =
          pattern.itemWays registry defaultGreed value bound := by
      intro value bound
      cases pattern with
      | deconstruct shape items =>
          rw [itemTurns, itemWays]
          rcases registry.decompose shape value with error | _ | parts
          · rfl
          · rfl
          · rw [Way.outcomes_completeTurns]
            exact congrArg Way.complete (ofRow _)
      | keyed shape entries =>
          rw [itemTurns, itemWays]
          cases shape.lookup? (entries.map Prod.fst) value with
          | none => rfl
          | some parts =>
              exact outcomes_entryTurns (fun item member => (ofParts item member).1) parts bound
      | and operands =>
          exact outcomes_allTurns (fun operand member => (ofParts operand member).1) value bound
      | _ => exact Turns.outcomes_quiet _
    refine ⟨ofValues, fun way => ?_⟩
    cases pattern with
    | sequence items => exact ofRow way
    | _ => exact Way.outcomes_singleTurns ofValues way
  nil way := rfl
  repeated unit minimum greed items _ ofItems way := by
    rw [rowTurns_repeated, rowWays_repeated, Turns.outcomes_andThen, Turns.outcomes_quiet]
    congr 1
    funext later
    exact ofItems later
  plain item items leads ofItem ofItems way := by
    cases conditional : item.isCondition with
    | false =>
        rw [rowTurns_unit _ _ conditional leads, rowWays_unit _ _ conditional leads,
          Turns.outcomes_andThen, ofItem.2]
        congr 1
        funext later
        exact ofItems later
    | true =>
        cases item with
        | condition accepts =>
            rw [rowTurns_condition _ _ _ leads, rowWays_plain _ _ leads]
            cases way.left with
            | nil =>
                cases accepted : accepts ⟨Named.firsts way.bound⟩ with
                | false => simp [Turns.outcomes, accepted]
                | true => simp [Turns.outcomes, accepted, ofItems]
            | cons value left => rfl
        | _ => cases conditional

theorem rowWays_append {second : List (Pattern α)} (leads : repetitionLeads second = false)
    (first : List (Pattern α)) (way : Way α) :
    rowWays registry defaultGreed (first ++ second) way =
      (rowWays registry defaultGreed first way).flatMap (rowWays registry defaultGreed second) := by
  have outcomes := (outcomes_turns registry defaultGreed).row
  rw [← outcomes, rowTurns_append _ _ leads, Turns.outcomes_andThen, outcomes]
  congr 1
  funext later
  exact outcomes second later

/-! ## Without conditions -/

variable {registry defaultGreed}

theorem questions_entryTurns {entries : List (Value α × Pattern α)}
    (ofItems : ∀ item ∈ entries.map Prod.snd, ∀ value bound,
      Turns.questions (itemTurns registry defaultGreed item value bound) = [])
    (values : List (Value α)) (bound : Named (Value α)) :
    Turns.questions (entryTurns registry defaultGreed entries values bound) = [] := by
  induction entries generalizing values bound with
  | nil => cases values <;> rfl
  | cons entry entries induction =>
      cases values with
      | nil => rfl
      | cons value values =>
          apply Turns.questions_andThen_eq_nil (ofItems entry.2 List.mem_cons_self _ _)
          intro later
          exact induction (fun item member => ofItems item (List.mem_cons_of_mem _ member)) _ _

theorem questions_allTurns {operands : List (Pattern α)}
    (ofOperands : ∀ operand ∈ operands, ∀ value bound,
      Turns.questions (itemTurns registry defaultGreed operand value bound) = [])
    (value : Value α) (bound : Named (Value α)) :
    Turns.questions (allTurns registry defaultGreed operands value bound) = [] := by
  induction operands generalizing bound with
  | nil => rfl
  | cons operand operands induction =>
      apply Turns.questions_andThen_eq_nil (ofOperands operand List.mem_cons_self _ _)
      intro later
      exact induction (fun other member => ofOperands other (List.mem_cons_of_mem _ member)) _

variable (registry defaultGreed)

/-- Only conditions ask. -/
theorem questions_turns : Inductive (α := α)
    (fun pattern => pattern.holdsCondition = false →
      (∀ value bound, Turns.questions (pattern.itemTurns registry defaultGreed value bound) = []) ∧
        ∀ way, Turns.questions (pattern.unitTurns registry defaultGreed way) = [])
    (fun items => items.any holdsCondition = false →
      ∀ way, Turns.questions (rowTurns registry defaultGreed items way) = []) where
  whole pattern ofParts ofRow unconditional := by
    rw [holdsCondition_eq, Bool.or_eq_false_iff] at unconditional
    rcases unconditional with ⟨-, unconditional⟩
    have row := ofRow unconditional
    have items : ∀ part ∈ pattern.parts, ∀ value bound,
        Turns.questions (part.itemTurns registry defaultGreed value bound) = [] := by
      intro part member
      apply (ofParts part member _).1
      simpa using List.any_eq_false.mp unconditional part member
    have ofValues : ∀ value bound,
        Turns.questions (pattern.itemTurns registry defaultGreed value bound) = [] := by
      intro value bound
      cases pattern with
      | deconstruct shape items =>
          rw [itemTurns]
          split
          · exact Way.questions_completeTurns (row _)
          · rfl
      | keyed shape entries =>
          rw [itemTurns]
          split
          · exact questions_entryTurns items _ bound
          · rfl
      | and operands => exact questions_allTurns items value bound
      | _ => exact Turns.questions_quiet _
    refine ⟨ofValues, fun way => ?_⟩
    cases pattern with
    | sequence items => exact row way
    | _ => exact Way.questions_singleTurns ofValues way
  nil _ way := rfl
  repeated unit minimum greed items _ ofItems unconditional way := by
    rw [rowTurns_repeated]
    apply Turns.questions_andThen_eq_nil (Turns.questions_quiet _)
    apply ofItems
    rw [List.any_cons, List.any_cons, Bool.or_eq_false_iff, Bool.or_eq_false_iff] at unconditional
    exact unconditional.2.2
  plain item items leads ofItem ofItems unconditional way := by
    rw [List.any_cons, Bool.or_eq_false_iff] at unconditional
    rw [rowTurns_unit _ _ (isCondition_eq_false unconditional.1) leads]
    exact Turns.questions_andThen_eq_nil ((ofItem unconditional.1).2 way)
      (ofItems unconditional.2)

/-- Without conditions there are the ways, one after another. -/
theorem rowTurns_eq_quiet {items : List (Pattern α)}
    (unconditional : items.any holdsCondition = false) (way : Way α) :
    rowTurns registry defaultGreed items way =
      Turns.quiet (rowWays registry defaultGreed items way) := by
  rw [Turns.eq_quiet ((questions_turns registry defaultGreed).row items unconditional way),
    (outcomes_turns registry defaultGreed).row items way]

end

end Pattern

end Destructure
