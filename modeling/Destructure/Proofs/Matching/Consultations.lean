import Destructure.Proofs.Matching.Correspondence
import Destructure.Proofs.Matching.PatternTurns

/-!
What a search asks, and when, is settled by the pattern as it is written. What a compiled matcher
offers is compared with the turns of the pattern turn by turn: the same questions, and between them
outcomes where what has been recorded is what has been bound. So patterns with the same turns lead
to searches with the same bindings and the same consultations.
-/

namespace Destructure

variable {α : Type}

open Outline (leadingRepetition? number numberAll)

/-! ## Turns side by side -/

namespace Turns

variable {β β' γ γ' : Type} {related : β → γ → Prop} {related' : β' → γ' → Prop}

/-- The same questions are asked, and the outcomes between them are related one by one. -/
inductive Parallel (related : β → γ → Prop) : Turns α β → Turns α γ → Prop
  | nil : Parallel related [] []
  | asked (consultation : Consultation α) {turns : Turns α β} {turns' : Turns α γ}
      (later : Parallel related turns turns') :
      Parallel related (.asked consultation :: turns) (.asked consultation :: turns')
  | reached {outcome : β} {outcome' : γ} (relates : related outcome outcome')
      {turns : Turns α β} {turns' : Turns α γ} (later : Parallel related turns turns') :
      Parallel related (.reached outcome :: turns) (.reached outcome' :: turns')

namespace Parallel

variable {turns : Turns α β} {turns' : Turns α γ}

theorem single {outcome : β} {outcome' : γ} (relates : related outcome outcome') :
    Parallel related ([.reached outcome] : Turns α β) [.reached outcome'] :=
  .reached relates .nil

theorem append {others : Turns α β} {others' : Turns α γ}
    (parallel : Parallel related turns turns') (parallel' : Parallel related others others') :
    Parallel related (turns ++ others) (turns' ++ others') := by
  induction parallel with
  | nil => exact parallel'
  | asked consultation _ induction => exact .asked consultation induction
  | reached relates _ induction => exact .reached relates induction

theorem imp {related' : β → γ → Prop} (parallel : Parallel related turns turns')
    (relates : ∀ outcome outcome', related outcome outcome' → related' outcome outcome') :
    Parallel related' turns turns' := by
  induction parallel with
  | nil => exact .nil
  | asked consultation _ induction => exact .asked consultation induction
  | reached here _ induction => exact .reached (relates _ _ here) induction

theorem andThen {next : β → Turns α β'} {next' : γ → Turns α γ'}
    (parallel : Parallel related turns turns')
    (parallelNext : ∀ outcome outcome', related outcome outcome' →
      Parallel related' (next outcome) (next' outcome')) :
    Parallel related' (Turns.andThen turns next) (Turns.andThen turns' next') := by
  induction parallel with
  | nil => exact .nil
  | asked consultation _ induction => exact .asked consultation induction
  | reached relates _ induction => exact (parallelNext _ _ relates).append induction

theorem ite (parallel : Parallel related turns turns') (condition : Bool) :
    Parallel related (if condition then turns else []) (if condition then turns' else []) := by
  cases condition
  · exact .nil
  · exact parallel

/-- Where nothing is asked, it is enough to look at the outcomes. -/
theorem of_mirrors {asks : Consultation α → Prop} {listed : List γ}
    (mirrors : Mirrors asks related turns listed) (unasked : questions turns = []) :
    Parallel related turns (quiet listed) := by
  rw [eq_quiet unasked]
  have pairs := mirrors.outcomes
  clear mirrors unasked
  generalize outcomes turns = reached at pairs ⊢
  induction pairs with
  | nil => exact .nil
  | cons relates _ induction => exact .reached relates induction

theorem explore_eq {δ : Type} {goal : β → Trial α δ} {goal' : γ → Trial α δ}
    (parallel : Parallel related turns turns')
    (agree : ∀ outcome outcome', related outcome outcome' → goal outcome = goal' outcome') :
    Trial.explore goal turns = Trial.explore goal' turns' := by
  induction parallel with
  | nil => rfl
  | asked consultation _ induction => rw [Trial.explore_asked, Trial.explore_asked, induction]
  | reached relates _ induction =>
      rw [Trial.explore_reached, Trial.explore_reached, agree _ _ relates, induction]

end Parallel

/-! ## Nothing is asked -/

theorem questions_flatMap_eq_nil {ι : Type} {choices : List ι} {turns : ι → Turns α β}
    (unasked : ∀ choice, questions (turns choice) = []) :
    questions (choices.flatMap turns) = [] := by
  induction choices with
  | nil => rfl
  | cons choice choices induction =>
      rw [List.flatMap_cons, questions_append, unasked, induction, List.append_nil]

theorem questions_verdict_eq_nil {turns : Turns α β} (unasked : questions turns = [])
    (expected : Bool) (outcome : γ) : questions (verdict expected outcome turns) = [] := by
  rw [questions_verdict, List.eq_nil_iff_forall_not_mem]
  intro question leads
  have among := mem_questions_of_mem_leading leads
  rw [unasked] at among
  cases among

theorem questions_exhausted {turns : Turns α (Place α)} (unasked : questions turns = []) :
    questions (exhausted turns) = [] := by
  apply questions_andThen_eq_nil unasked
  intro place
  split <;> rfl

theorem questions_passes {row : List (Value α) → Contents α → Turns α (Place α)}
    (unasked : ∀ values contents, questions (row values contents) = []) (count : Nat)
    (values : List (Value α)) (contents : Contents α) :
    questions (passes row count values contents) = [] := by
  induction count generalizing values contents with
  | zero => rfl
  | succ count induction =>
      exact questions_andThen_eq_nil (unasked values contents) fun place => induction _ _

theorem questions_eachValue {item : Value α → Contents α → Turns α (Contents α)}
    (unasked : ∀ value contents, questions (item value contents) = []) (values : List (Value α))
    (contents : Contents α) : questions (eachValue item values contents) = [] := by
  induction values generalizing contents with
  | nil => rfl
  | cons value values induction =>
      exact questions_andThen_eq_nil (unasked value contents) fun contents => induction contents

end Turns

namespace Matcher

theorem questions_allTurns [BEq α] (matcher : Matcher α) {items : List (Outline α)}
    (ofItems : ∀ item ∈ items, ∀ value contents,
      Turns.questions (matcher.itemTurns item value contents) = []) (value : Value α)
    (contents : Contents α) : Turns.questions (matcher.allTurns items value contents) = [] := by
  induction items generalizing contents with
  | nil => rfl
  | cons item items induction =>
      apply Turns.questions_andThen_eq_nil (ofItems item List.mem_cons_self value contents)
      exact induction fun other member => ofItems other (List.mem_cons_of_mem _ member)

theorem questions_anyTurns [BEq α] (matcher : Matcher α) {items : List (Outline α)}
    (ofItems : ∀ item ∈ items, ∀ value contents,
      Turns.questions (matcher.itemTurns item value contents) = []) (value : Value α)
    (contents : Contents α) : Turns.questions (matcher.anyTurns items value contents) = [] := by
  induction items with
  | nil => rfl
  | cons item items induction =>
      rw [anyTurns, Turns.questions_append, ofItems item List.mem_cons_self, List.nil_append]
      exact induction fun other member => ofItems other (List.mem_cons_of_mem _ member)

theorem questions_counts [BEq α] (matcher : Matcher α) {unit : Outline α}
    (unasked : (∀ value contents, Turns.questions (matcher.itemTurns unit value contents) = []) ∧
      ∀ values contents, Turns.questions (matcher.partTurns unit values contents) = [])
    (counts : List Nat) (values : List (Value α)) (contents : Contents α) :
    Turns.questions (counts.flatMap (Turns.repeated
      (if unit.kind.isSequence then .inl (matcher.partTurns unit)
        else .inr (matcher.itemTurns unit)) values contents)) = [] := by
  apply Turns.questions_flatMap_eq_nil
  intro count
  cases unit.kind.isSequence with
  | true => exact Turns.questions_passes unasked.2 count values contents
  | false =>
      exact Turns.questions_andThen_eq_nil (Turns.questions_eachValue unasked.1 _ _) fun _ => rfl

theorem questions_node [BEq α] (matcher : Matcher α) {children : List (Outline α)}
    (items : ∀ child ∈ children, ∀ value contents,
      Turns.questions (matcher.itemTurns child value contents) = [])
    (row : ∀ values contents, Turns.questions (matcher.rowTurns children values contents) = [])
    (id : Nat) (kind : NodeKind α) (value : Value α) (contents : Contents α) :
    Turns.questions (matcher.itemTurns (.node id kind children) value contents) = [] := by
  cases kind with
  | test test =>
      rw [itemTurns]
      split <;> rfl
  | deconstruct shape =>
      rw [itemTurns]
      split
      · rfl
      · exact Turns.questions_exhausted (row _ _)
  | keyed shape keys =>
      rw [itemTurns]
      split
      · rfl
      · exact Turns.questions_exhausted (row _ _)
  | and => exact matcher.questions_allTurns items value contents
  | or =>
      exact Turns.questions_verdict_eq_nil (matcher.questions_anyTurns items value contents) _ _
  | not =>
      exact Turns.questions_verdict_eq_nil (matcher.questions_anyTurns items value contents) _ _
  | _ => rfl

/-- Only conditions ask. -/
theorem questions_turns [BEq α] (matcher : Matcher α) : Outline.Inductive
    (fun item => Outline.Unconditional item.preorder →
      (∀ value contents, Turns.questions (matcher.itemTurns item value contents) = []) ∧
        ∀ values contents, Turns.questions (matcher.partTurns item values contents) = [])
    (fun items => Outline.Unconditional (items.flatMap Outline.preorder) →
      ∀ values contents, Turns.questions (matcher.rowTurns items values contents) = []) where
  node id kind children ofChildren ofRow unconditional := by
    rw [Outline.preorder_node] at unconditional
    have row := ofRow fun node member => unconditional node (List.mem_cons_of_mem _ member)
    have items : ∀ child ∈ children, ∀ value contents,
        Turns.questions (matcher.itemTurns child value contents) = [] := by
      intro child member
      apply (ofChildren child member _).1
      intro node inside
      apply unconditional node
      exact List.mem_cons_of_mem _ (List.mem_flatMap.mpr ⟨child, member, inside⟩)
    exact ⟨matcher.questions_node items row id kind, row⟩
  nil _ _ _ := rfl
  repeated unit repetition minimum greed parts items ofUnit ofItems unconditional values
      contents := by
    rw [List.flatMap_cons] at unconditional
    have single := ofUnit fun node member => unconditional node (List.mem_append_left _ member)
    rw [rowTurns]
    apply Turns.questions_andThen_eq_nil (matcher.questions_counts single _ values _)
    intro place
    apply ofItems
    intro node member
    apply unconditional node
    rw [List.flatMap_cons]
    exact List.mem_append_right _ (List.mem_append_right _ member)
  plain item items leads ofItem ofItems unconditional values contents := by
    rw [List.flatMap_cons] at unconditional
    obtain ⟨single, part⟩ := ofItem fun node member =>
      unconditional node (List.mem_append_left _ member)
    have row := ofItems fun node member => unconditional node (List.mem_append_right _ member)
    have plain : item.kind.isCondition = false := by
      apply unconditional item
      rcases item with ⟨id, kind, children⟩
      rw [Outline.preorder_node]
      exact List.mem_append_left _ List.mem_cons_self
    have value : Turns.questions (Turns.andThen
        (Turns.single (matcher.itemTurns item) values contents)
        fun place => matcher.rowTurns items place.left place.contents) = [] := by
      apply Turns.questions_andThen_eq_nil _ fun place => row _ _
      cases values with
      | nil => rfl
      | cons value left => exact Turns.questions_andThen_eq_nil (single value contents) fun _ => rfl
    rw [Turns.andThen_single] at value
    rw [rowTurns_plain matcher leads]
    cases kind : item.kind with
    | condition accepts =>
        rw [kind] at plain
        cases plain
    | repetition minimum greed => rfl
    | sequence =>
        exact Turns.questions_andThen_eq_nil (part values contents) fun place => row _ _
    | _ => exact value

/-! ## Items and rows -/

open Turns (Parallel)

section

variable {depth : Nat} {places places' : List (String × Nat)} {contents : Contents α}
variable {bound : Named (Value α)}

theorem parallel_andThen {turns : Turns α (Place α)} {turns' : Turns α (Way α)}
    {next : Place α → Turns α (Place α)} {next' : Way α → Turns α (Way α)}
    (parallel : Parallel (Corresponds depth places contents bound) turns turns')
    (parallelNext : ∀ contents' bound' left,
      Recorded depth places contents bound contents' bound' →
      Parallel (Corresponds depth places' contents' bound') (next ⟨contents', left⟩)
        (next' ⟨bound', left⟩)) :
    Parallel (Corresponds depth (places ++ places') contents bound) (Turns.andThen turns next)
      (Turns.andThen turns' next') := by
  apply parallel.andThen
  rintro ⟨contents', left⟩ ⟨bound', left'⟩ ⟨recorded, same⟩
  obtain rfl : left = left' := same
  exact (parallelNext contents' bound' left recorded).imp fun place way corresponds =>
    corresponds.after recorded

theorem parallel_single {item : Value α → Contents α → Turns α (Contents α)}
    {item' : Value α → Named (Value α) → Turns α (Named (Value α))}
    (parallel : ∀ value, Parallel (Recorded depth places contents bound) (item value contents)
      (item' value bound)) (values : List (Value α)) :
    Parallel (Corresponds depth places contents bound) (Turns.single item values contents)
      (Way.singleTurns item' ⟨bound, values⟩) := by
  cases values with
  | nil => exact .nil
  | cons value left =>
      exact (parallel value).andThen fun contents' bound' recorded => .single ⟨recorded, rfl⟩

theorem parallel_exhausted {turns : Turns α (Place α)} {turns' : Turns α (Way α)}
    (parallel : Parallel (Corresponds depth places contents bound) turns turns') :
    Parallel (Recorded depth places contents bound) (Turns.exhausted turns)
      (Way.completeTurns turns') := by
  apply parallel.andThen
  intro place way corresponds
  rw [corresponds.left]
  exact Parallel.ite (.single corresponds.recorded) _

end

def ParallelsItem [BEq α] (matcher : Matcher α) (registry : Registry α) (defaultGreed : Greed)
    (pattern : Pattern α) : Prop :=
  ∀ first depth contents bound, pattern.Orderly →
    matcher.Fits registry depth (number defaultGreed pattern first).1 →
    matcher.Informed pattern.holdsCondition depth (number defaultGreed pattern first).1.preorder
      contents bound →
    (∀ value, Parallel
      (Recorded depth (number defaultGreed pattern first).1.places contents bound)
      (matcher.itemTurns (number defaultGreed pattern first).1 value contents)
      (pattern.itemTurns registry defaultGreed value bound)) ∧
    (pattern.isSequence → ∀ values, Parallel
      (Corresponds depth (number defaultGreed pattern first).1.places contents bound)
      (matcher.partTurns (number defaultGreed pattern first).1 values contents)
      (pattern.sequenceTurns registry defaultGreed ⟨bound, values⟩))

def ParallelsRow [BEq α] (matcher : Matcher α) (registry : Registry α) (defaultGreed : Greed)
    (patterns : List (Pattern α)) : Prop :=
  ∀ first depth contents bound values, (∀ pattern ∈ patterns, pattern.Orderly) →
    Pattern.UnitsUnconditional patterns →
    matcher.FitsRow registry depth true (numberAll defaultGreed patterns first).1 →
    matcher.Informed (patterns.any Pattern.holdsCondition) depth
      ((numberAll defaultGreed patterns first).1.flatMap Outline.preorder) contents bound →
    Parallel
      (Corresponds depth ((numberAll defaultGreed patterns first).1.flatMap Outline.places)
        contents bound)
      (matcher.rowTurns (numberAll defaultGreed patterns first).1 values contents)
      (Pattern.rowTurns registry defaultGreed patterns ⟨bound, values⟩)

section

variable [BEq α] {matcher : Matcher α} {source : Pattern α} {registry : Registry α}
variable {options : Options}

theorem parallelsRow_repeated (compiled : matcher.Compiled source registry options)
    (unit : Pattern α) (minimum : Nat) (greed : Option Greed) {items : List (Pattern α)}
    (ofItems : matcher.ParallelsRow registry options.defaultGreed items) :
    matcher.ParallelsRow registry options.defaultGreed
      (unit :: .repetition minimum greed :: items) := by
  intro first depth contents bound values orderly units fits informed
  rw [Outline.numberAll_repeated] at fits informed ⊢
  rcases fits with ⟨⟨opens, fitsUnit⟩, -, fitsItems⟩
  have counts := mirrors_counts ((mirrors_items compiled).item unit)
    (orderly unit List.mem_cons_self) (units.1 rfl) opens fitsUnit minimum
    (greed.getD options.defaultGreed) contents bound values
  have unasked := matcher.questions_turns.item _
    (unconditional_number options.defaultGreed (units.1 rfl) first)
  rw [rowTurns, Pattern.rowTurns_repeated]
  apply parallel_andThen (.of_mirrors counts (matcher.questions_counts unasked _ values _))
  intro contents' bound' left recorded
  apply ofItems _ depth contents' bound' left _ units.2.2 fitsItems
  · intro holds
    rcases informed.after recorded (by rw [List.any_cons, holds, Bool.or_true]) with ⟨rfl, reached⟩
    exact ⟨rfl, reached.tail rfl⟩
  · exact fun pattern member =>
      orderly pattern (List.mem_cons_of_mem _ (List.mem_cons_of_mem _ member))

theorem parallelsRow_plain (compiled : matcher.Compiled source registry options)
    {item : Pattern α} {items : List (Pattern α)} (leads : Pattern.repetitionLeads items = false)
    (ofItem : matcher.ParallelsItem registry options.defaultGreed item)
    (ofItems : matcher.ParallelsRow registry options.defaultGreed items) :
    matcher.ParallelsRow registry options.defaultGreed (item :: items) := by
  intro first depth contents bound values orderly units fits informed
  rw [Outline.numberAll_cons] at fits informed ⊢
  have leads' := leadingRepetition?_numberAll options.defaultGreed leads
    (number options.defaultGreed item first).2
  rcases fits with ⟨fitsItem, fitsItems⟩
  rw [Outline.surrounding?, if_pos rfl, leads'] at fitsItem
  obtain ⟨single, sequence⟩ := ofItem first depth contents bound (orderly item List.mem_cons_self)
    fitsItem informed.head
  have others : ∀ contents' bound' left,
      Recorded depth (number options.defaultGreed item first).1.places contents bound contents'
        bound' → _ :=
    fun contents' bound' left recorded =>
      ofItems (number options.defaultGreed item first).2 depth contents' bound' left
        (fun pattern member => orderly pattern (List.mem_cons_of_mem _ member)) units.2 fitsItems
        (informed.after recorded)
  have onward : ∀ {turns : Turns α (Place α)} {turns' : Turns α (Way α)},
      Parallel (Corresponds depth (number options.defaultGreed item first).1.places contents bound)
        turns turns' →
      Parallel
        (Corresponds depth (((number options.defaultGreed item first).1 ::
          (numberAll options.defaultGreed items
            (number options.defaultGreed item first).2).1).flatMap Outline.places)
          contents bound)
        (Turns.andThen turns fun place => matcher.rowTurns
          (numberAll options.defaultGreed items (number options.defaultGreed item first).2).1
          place.left place.contents)
        (Turns.andThen turns' (Pattern.rowTurns registry options.defaultGreed items)) :=
    fun parallel => parallel_andThen parallel others
  have value := onward (parallel_single single values)
  rw [Turns.andThen_single] at value
  rw [rowTurns_plain matcher leads', Outline.kind_number]
  cases conditional : item.isCondition with
  | true =>
      cases item with
      | condition accepts =>
          rcases informed rfl with ⟨rfl, reached⟩
          simp only [Pattern.nodeKind, compiled.bindingsIn_eq reached,
            Pattern.rowTurns_condition _ _ _ leads]
          cases values with
          | nil => exact .asked _ ((others contents bound [] (.refl 0 contents bound)).ite _)
          | cons value left => exact .nil
      | _ => cases conditional
  | false =>
      rw [Pattern.rowTurns_unit _ _ conditional leads]
      cases item with
      | condition accepts => cases conditional
      | repetition minimum greed => cases values <;> exact .nil
      | sequence parts => exact onward (sequence rfl values)
      | _ => exact value

theorem parallel_all {operands : List (Pattern α)}
    (ofOperands : ∀ operand ∈ operands,
      matcher.ParallelsItem registry options.defaultGreed operand)
    (orderly : ∀ operand ∈ operands, operand.Orderly) (first : Nat) {depth : Nat}
    {contents : Contents α} {bound : Named (Value α)}
    (fits : matcher.FitsRow registry depth false (numberAll options.defaultGreed operands first).1)
    (informed : matcher.Informed (operands.any Pattern.holdsCondition) depth
      ((numberAll options.defaultGreed operands first).1.flatMap Outline.preorder) contents bound)
    (value : Value α) :
    Parallel
      (Recorded depth ((numberAll options.defaultGreed operands first).1.flatMap Outline.places)
        contents bound)
      (matcher.allTurns (numberAll options.defaultGreed operands first).1 value contents)
      (Pattern.allTurns registry options.defaultGreed operands value bound) := by
  induction operands generalizing first contents bound with
  | nil => exact .single (.refl depth contents bound)
  | cons operand operands induction =>
      rw [Outline.numberAll_cons] at fits informed ⊢
      have here := (ofOperands operand List.mem_cons_self first depth contents bound
        (orderly operand List.mem_cons_self) fits.1 informed.head).1 value
      apply here.andThen
      intro contents' bound' recorded
      have others := induction
        (fun other member => ofOperands other (List.mem_cons_of_mem _ member))
        (fun other member => orderly other (List.mem_cons_of_mem _ member)) _ fits.2
        (informed.after recorded)
      exact others.imp fun _ _ later => recorded.trans later

theorem parallelsItem_of_parts (compiled : matcher.Compiled source registry options)
    {pattern : Pattern α}
    (ofParts : ∀ part ∈ pattern.parts, matcher.ParallelsItem registry options.defaultGreed part)
    (ofRow : matcher.ParallelsRow registry options.defaultGreed pattern.parts) :
    matcher.ParallelsItem registry options.defaultGreed pattern := by
  intro first depth contents bound orderly fits informed
  have partsOrderly : ∀ part ∈ pattern.parts, part.Orderly :=
    fun part member => orderly.parts member
  have placed := orderly.wellPlaced
  have informedParts := informed.parts
  -- Without a condition, the ways of the pattern are all that is offered.
  have silent : pattern.holdsCondition = false → ∀ value, _ := fun unconditional value =>
    Parallel.of_mirrors
      (((mirrors_items compiled).item pattern first depth contents bound orderly fits
        informed).1 value)
      ((matcher.questions_turns.item _
        (unconditional_number options.defaultGreed unconditional first)).1 value contents)
  rw [Outline.number_eq] at fits silent ⊢
  have row : pattern.boundName? = none → pattern.isOrdered → ∀ values, _ :=
    fun none ordered values => ofRow (first + 1) depth contents bound values partsOrderly
      placed.unitsUnconditional (by
        rw [← ordered, ← Pattern.isOrdered_nodeKind options.defaultGreed]
        exact fits.2.2)
      (informedParts none)
  refine ⟨fun value => ?_, fun sequence values => ?_⟩
  · cases pattern with
    | deconstruct shape items =>
        rcases fits.2.1 shape rfl with ⟨decomposer, found, listed⟩
        rw [Outline.places_node, Pattern.nodeKind, itemTurns, listed, Pattern.itemTurns,
          Registry.decompose, found]
        simp only [Option.bind_some, Except.map]
        cases decomposer value with
        | none => exact .nil
        | some parts => exact parallel_exhausted (row rfl rfl parts)
    | keyed shape entries =>
        rw [Outline.places_node, Pattern.nodeKind, itemTurns, Pattern.itemTurns]
        cases shape.lookup? (entries.map Prod.fst) value with
        | none => exact .nil
        | some parts =>
            have alone := placed.alone rfl
            simp only [← Pattern.complete_rowTurns_entries _ _ alone]
            exact parallel_exhausted (row rfl rfl parts)
    | and operands =>
        rw [Outline.places_node]
        exact parallel_all ofParts partsOrderly _ fits.2.2 (informedParts rfl) value
    | sequence items => exact .nil
    | condition accepts => exact .nil
    | or operands => exact silent (placed.unconditional rfl) value
    | not operands => exact silent (placed.unconditional rfl) value
    | _ => exact silent rfl value
  · cases pattern with
    | sequence items =>
        rw [Outline.places_node]
        exact row rfl rfl values
    | _ => cases sequence

/-- A compiled matcher offers what its pattern does, question for question. -/
theorem parallels_items (compiled : matcher.Compiled source registry options) :
    Pattern.Inductive (matcher.ParallelsItem registry options.defaultGreed)
      (matcher.ParallelsRow registry options.defaultGreed) where
  whole _ ofParts ofRow := parallelsItem_of_parts compiled ofParts ofRow
  nil _ depth contents bound values _ _ _ _ := .single (.refl depth contents bound values)
  repeated unit minimum greed _ _ ofItems :=
    parallelsRow_repeated compiled unit minimum greed ofItems
  plain _ _ leads ofItem ofItems := parallelsRow_plain compiled leads ofItem ofItems

end

end Matcher

/-! ## A whole search -/

namespace Pattern

variable [BEq α]

def concluding (guard : Option (Bindings α → Bool)) (bound : Named (Value α)) :
    Trial α (Bindings α) :=
  if Named.agree bound then
    match guard with
    | none => .success ⟨Named.firsts bound⟩
    | some accepts =>
      .after ⟨.guard, ⟨Named.firsts bound⟩, accepts ⟨Named.firsts bound⟩⟩
        (if accepts ⟨Named.firsts bound⟩ then .success ⟨Named.firsts bound⟩ else .failure)
  else .failure

def trial (pattern : Pattern α) (registry : Registry α) (options : Options)
    (guard : Option (Bindings α → Bool)) (value : Value α) : Trial α (Bindings α) :=
  .explore (concluding guard)
    (Way.completeTurns (rowTurns registry options.defaultGreed [pattern] ⟨[], [value]⟩))

end Pattern

namespace Matcher

section

open Turns (Parallel)

variable [BEq α] {matcher : Matcher α} {pattern : Pattern α} {registry : Registry α}
variable {options : Options}

theorem Compiled.parallels_search (compiled : matcher.Compiled pattern registry options)
    (value : Value α) :
    Parallel (Recorded 0 matcher.outline.places (Array.replicate matcher.tree.size none) [])
      (.exhausted (matcher.rowTurns [matcher.outline] [value]
        (Array.replicate matcher.tree.size none)))
      (Way.completeTurns
        (Pattern.rowTurns registry options.defaultGreed [pattern] ⟨[], [value]⟩)) := by
  have row := (parallels_items compiled).row [pattern] 0 0
    (Array.replicate matcher.tree.size none) [] [value] compiled.orderly_alone
    ⟨fun leads => absurd leads Bool.false_ne_true, trivial⟩
  rw [compiled.numberAll_alone] at row
  have search := parallel_exhausted (row ⟨compiled.fits, trivial⟩ (informed_at_start matcher _))
  rwa [List.flatMap_cons, List.flatMap_nil, List.append_nil] at search

/-- What becomes of a search, and what is asked in it, is settled by the pattern. -/
theorem search_eq_trial (compiled : compile pattern registry options = .ok matcher)
    (guard : Option (Bindings α → Bool)) (value : Value α) :
    bindingsOf (matcher.search guard value) =
        (pattern.trial registry options guard value).result ∧
      consultationsOf (matcher.search guard value) =
        (pattern.trial registry options guard value).consultations := by
  have facts := compiled_of_compile compiled
  have same : matcher.searchTrial guard value = pattern.trial registry options guard value :=
    (facts.parallels_search value).explore_eq fun contents bound recorded =>
      facts.finalTrial_eq recorded guard
  rw [← same]
  exact search_eq facts.settled guard value

end

end Matcher

end Destructure
