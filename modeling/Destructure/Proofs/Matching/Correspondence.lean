import Destructure.Proofs.Matching.Mirroring
import Destructure.Proofs.Matching.Settlement
import Destructure.Proofs.Matching.Tables

/-!
What a compiled matcher offers in a search corresponds to the ways of its pattern. Wherever the
search gets to outside of all repetitions, the variables before that place have been recorded and
no others; so a condition is asked about what is bound so far.
-/

namespace Destructure

variable {α : Type}

open Outline (number numberAll leadingRepetition?)

namespace Matcher

def Reached (matcher : Matcher α) (nodes : List (Outline α)) (contents : Contents α)
    (bound : Named (Value α)) : Prop :=
  ∃ before after, ∃ deposits : List (Deposit α),
    matcher.outline.preorder = before ++ (nodes ++ after) ∧
      deposits.map Deposit.place = before.filterMap Outline.place? ∧
      contents = Contents.deposit (Array.replicate matcher.tree.size none) 0 deposits ∧
      bound = deposits.map Deposit.pair

section

variable {matcher : Matcher α} {nodes others : List (Outline α)} {contents later : Contents α}
variable {bound boundLater : Named (Value α)}

theorem Reached.after (reached : matcher.Reached (nodes ++ others) contents bound)
    (recorded : Recorded 0 (nodes.filterMap Outline.place?) contents bound later boundLater) :
    matcher.Reached others later boundLater := by
  rcases reached with ⟨before, after, deposits, split, covers, rfl, rfl⟩
  rcases recorded with ⟨deposits', covers', rfl, rfl⟩
  refine ⟨before ++ nodes, after, deposits ++ deposits', ?_, ?_, ?_, ?_⟩
  · rw [split, List.append_assoc, List.append_assoc]
  · rw [List.map_append, covers, covers', List.filterMap_append]
  · rw [Contents.deposit_append]
  · rw [List.map_append]

theorem Reached.of_append (reached : matcher.Reached (nodes ++ others) contents bound) :
    matcher.Reached nodes contents bound := by
  rcases reached with ⟨before, after, deposits, split, rest⟩
  exact ⟨before, others ++ after, deposits, by rw [split, List.append_assoc], rest⟩

theorem Reached.tail {node : Outline α} (reached : matcher.Reached (node :: nodes) contents bound)
    (none : node.place? = none) : matcher.Reached nodes contents bound := by
  have recorded : Recorded 0 ([node].filterMap Outline.place?) contents bound contents bound := by
    rw [List.filterMap_cons, none]
    exact .refl 0 contents bound
  exact Reached.after reached recorded

end

section

variable [BEq α] {matcher : Matcher α} {pattern : Pattern α} {registry : Registry α}
variable {options : Options} (compiled : matcher.Compiled pattern registry options)
include compiled

theorem Compiled.nodup_ids : (matcher.outline.preorder.map Outline.id).Nodup := by
  rw [compiled.outline, Outline.ids_ofPattern]
  exact List.nodup_range

theorem Compiled.lt_size {node : Outline α} (member : node ∈ matcher.outline.preorder) :
    node.id < matcher.tree.size := by
  have listed : node.id ∈ matcher.outline.preorder.map Outline.id := List.mem_map_of_mem member
  rw [compiled.size, compiled.outline]
  rw [compiled.outline, Outline.ids_ofPattern] at listed
  exact List.mem_range.mp listed

theorem Compiled.record?_eq {deposits : List (Deposit α)} {before after : List (Outline α)}
    (split : matcher.outline.preorder = before ++ after)
    (covers : deposits.map Deposit.place = before.filterMap Outline.place?) :
    (∀ deposit ∈ deposits,
      (Contents.deposit (Array.replicate matcher.tree.size none) 0 deposits).record? deposit.id =
        some deposit.entry) ∧
    ∀ place ∈ after.filterMap Outline.place?,
      (Contents.deposit (Array.replicate matcher.tree.size none) 0 deposits).record? place.2 =
        none := by
  have ids : deposits.map Deposit.id = (before.filterMap Outline.place?).map Prod.snd := by
    rw [← covers, List.map_map]
    rfl
  have nodup := compiled.nodup_ids
  rw [split, List.map_append, List.nodup_append'] at nodup
  rcases nodup with ⟨nodupBefore, -, disjoint⟩
  have distinct : (deposits.map Deposit.id).Nodup :=
    ids ▸ Outline.nodup_ids_places nodupBefore
  have amongBefore : ∀ deposit ∈ deposits, deposit.id ∈ before.map Outline.id := by
    intro deposit member
    apply (Outline.sublist_ids_places before).subset
    rw [← ids]
    exact List.mem_map_of_mem member
  refine ⟨?_, ?_⟩
  · intro deposit member
    apply Contents.record?_deposit_of_mem _ distinct _ member
    intro other among
    rcases List.mem_map.mp (amongBefore other among) with ⟨node, inside, equal⟩
    rw [Array.size_replicate, ← equal]
    exact compiled.lt_size (split ▸ List.mem_append_left _ inside)
  · intro place member
    rw [Contents.record?_deposit_of_not_mem]
    · rw [Contents.record?, Array.getElem?_replicate]
      split <;> rfl
    · intro deposit among same
      apply disjoint (amongBefore deposit among)
      apply (Outline.sublist_ids_places after).subset
      rw [same]
      exact List.mem_map_of_mem member

theorem Compiled.bindingsIn_eq {nodes : List (Outline α)} {contents : Contents α}
    {bound : Named (Value α)} (reached : matcher.Reached nodes contents bound) :
    matcher.bindingsIn contents = ⟨Named.firsts bound⟩ := by
  rcases reached with ⟨before, after, deposits, equal, covers, isDeposit, rfl⟩
  rcases compiled.record?_eq equal covers with ⟨recorded, unrecorded⟩
  rw [← isDeposit] at recorded unrecorded
  have shown : ∀ pair ∈ Named.firsts (Deposit.named deposits),
      (contents.record? pair.2.id).map (fun record => (pair.1, record.toValue)) =
        some (pair.1, pair.2.entry.toValue) := by
    intro pair member
    rw [recorded pair.2 (Deposit.mem_of_mem_named (Named.mem_of_mem_firsts member))]
    rfl
  -- Names that occur for the first time behind this place have no record and are left out.
  have hidden : ∀ place ∈ (Named.firsts ((nodes ++ after).filterMap Outline.place?)).filter
      (fun other => !(Named.names (before.filterMap Outline.place?)).contains other.1),
      (contents.record? place.2).map (fun record => (place.1, record.toValue)) = none := by
    intro place member
    rw [unrecorded place (Named.mem_of_mem_firsts (List.mem_filter.mp member).1), Option.map_none]
  have snapshot : matcher.bindingsIn contents = ⟨matcher.names.filterMap fun place =>
      (contents.record? place.2).map fun record => (place.1, record.toValue)⟩ := rfl
  rw [snapshot, compiled.names, Outline.places, equal, List.filterMap_append,
    Named.firsts_append, List.filterMap_append, List.filterMap_eq_nil_iff.mpr hidden,
    List.append_nil, ← covers, Deposit.map_place_eq, Deposit.map_pair_eq,
    Named.firsts_map Deposit.id, List.filterMap_map,
    Named.firsts_map fun deposit : Deposit α => deposit.entry.toValue]
  exact congrArg Bindings.mk (List.filterMap_eq_map_iff_forall_eq_some.mpr shown)

theorem Compiled.namesAgree_eq {contents : Contents α} {bound : Named (Value α)}
    (recorded : Recorded 0 matcher.outline.places
      (Array.replicate matcher.tree.size none) [] contents bound) :
    matcher.namesAgree ⟨contents, #[], 0⟩ = Named.agree bound := by
  rcases recorded with ⟨deposits, covers, isDeposit, rfl⟩
  have records := (compiled.record?_eq (List.append_nil _).symm covers).1
  rw [← isDeposit] at records
  have shown : ∀ name, ((Named.under name (Deposit.named deposits)).map Deposit.id).map
      (fun id => (contents.record? id).map Entry.toValue) =
        (Named.under name (Deposit.named deposits)).map
          fun deposit => some deposit.entry.toValue := by
    intro name
    rw [List.map_map]
    apply List.map_congr_left
    intro deposit member
    rw [Function.comp_apply,
      records deposit (Deposit.mem_of_mem_named (Named.mem_of_mem_under member))]
    rfl
  have groups : (Named.grouped matcher.outline.places).map Prod.snd =
      (Named.firsts (Deposit.named deposits)).map
        fun pair => (Named.under pair.1 (Deposit.named deposits)).map Deposit.id := by
    rw [Named.grouped, ← covers, Deposit.map_place_eq, Named.firsts_map Deposit.id, List.map_map,
      List.map_map]
    apply List.map_congr_left
    intro pair _
    exact Named.under_map Deposit.id pair.1 _
  rw [namesAgree, compiled.repeatedNames, groups, List.all_filter, List.all_map, Named.agree,
    List.nil_append, Deposit.map_pair_eq,
    Named.firsts_map fun deposit : Deposit α => deposit.entry.toValue, List.all_map,
    Bool.eq_iff_iff, List.all_eq_true, List.all_eq_true]
  apply forall₂_congr
  intro pair member
  rcases Named.under_of_mem_firsts member with ⟨others, group⟩
  have listed := shown pair.1
  simp only [Function.comp_apply, Slots.get?,
    Named.under_map fun deposit : Deposit α => deposit.entry.toValue]
  simp only [Contents.record?] at listed
  rw [listed, group]
  cases others <;> simp

end

/-! ## Items and rows -/

open Turns (Mirrors)

def AskedInside (matcher : Matcher α) (question : Consultation α) : Prop :=
  question.role = .condition ∧ ∃ before condition after,
    matcher.outline.preorder = before ++ condition :: after ∧ condition.kind.isCondition ∧
      question.bindings.names = ((before.filterMap Outline.place?).map Prod.fst).eraseDups

def Informed (matcher : Matcher α) (conditional : Bool) (depth : Nat) (nodes : List (Outline α))
    (contents : Contents α) (bound : Named (Value α)) : Prop :=
  conditional → depth = 0 ∧ matcher.Reached nodes contents bound

def MirrorsItem [BEq α] (matcher : Matcher α) (registry : Registry α) (defaultGreed : Greed)
    (pattern : Pattern α) : Prop :=
  ∀ first depth contents bound, pattern.Orderly →
    matcher.Fits registry depth (number defaultGreed pattern first).1 →
    matcher.Informed pattern.holdsCondition depth (number defaultGreed pattern first).1.preorder
      contents bound →
    (∀ value, Mirrors matcher.AskedInside
      (Recorded depth (number defaultGreed pattern first).1.places contents bound)
      (matcher.itemTurns (number defaultGreed pattern first).1 value contents)
      (pattern.itemWays registry defaultGreed value bound)) ∧
    (pattern.isSequence → ∀ values, Mirrors matcher.AskedInside
      (Corresponds depth (number defaultGreed pattern first).1.places contents bound)
      (matcher.partTurns (number defaultGreed pattern first).1 values contents)
      (pattern.sequenceWays registry defaultGreed ⟨bound, values⟩))

def MirrorsRow [BEq α] (matcher : Matcher α) (registry : Registry α) (defaultGreed : Greed)
    (patterns : List (Pattern α)) : Prop :=
  ∀ first depth contents bound values, (∀ pattern ∈ patterns, pattern.Orderly) →
    Pattern.UnitsUnconditional patterns →
    matcher.FitsRow registry depth true (numberAll defaultGreed patterns first).1 →
    matcher.Informed (patterns.any Pattern.holdsCondition) depth
      ((numberAll defaultGreed patterns first).1.flatMap Outline.preorder) contents bound →
    Mirrors matcher.AskedInside
      (Corresponds depth ((numberAll defaultGreed patterns first).1.flatMap Outline.places)
        contents bound)
      (matcher.rowTurns (numberAll defaultGreed patterns first).1 values contents)
      (Pattern.rowWays registry defaultGreed patterns ⟨bound, values⟩)

section

variable {matcher : Matcher α}

/-- Once an item has been matched, the search knows what it has to for the items behind it. -/
theorem Informed.after {items : List (Pattern α)} {item : Pattern α} {depth : Nat}
    {nodes others : List (Outline α)} {contents later : Contents α}
    {bound boundLater : Named (Value α)}
    (informed : matcher.Informed ((item :: items).any Pattern.holdsCondition) depth
      (nodes ++ others) contents bound)
    (recorded : Recorded depth (nodes.filterMap Outline.place?) contents bound later
      boundLater) :
    matcher.Informed (items.any Pattern.holdsCondition) depth others later boundLater := by
  intro holds
  rcases informed (by rw [List.any_cons, holds, Bool.or_true]) with ⟨rfl, reached⟩
  exact ⟨rfl, reached.after recorded⟩

theorem Informed.head {items : List (Pattern α)} {item : Pattern α} {depth : Nat}
    {nodes others : List (Outline α)} {contents : Contents α} {bound : Named (Value α)}
    (informed : matcher.Informed ((item :: items).any Pattern.holdsCondition) depth
      (nodes ++ others) contents bound) :
    matcher.Informed item.holdsCondition depth nodes contents bound := by
  intro holds
  rcases informed (by rw [List.any_cons, holds, Bool.true_or]) with ⟨rfl, reached⟩
  exact ⟨rfl, reached.of_append⟩

theorem Informed.parts {pattern : Pattern α} {defaultGreed : Greed} {first depth : Nat}
    {contents : Contents α} {bound : Named (Value α)}
    (informed : matcher.Informed pattern.holdsCondition depth
      (number defaultGreed pattern first).1.preorder contents bound)
    (none : pattern.boundName? = none) :
    matcher.Informed (pattern.parts.any Pattern.holdsCondition) depth
      ((numberAll defaultGreed pattern.parts (first + 1)).1.flatMap Outline.preorder) contents
      bound := by
  intro holds
  rcases informed (by rw [Pattern.holdsCondition_eq, holds, Bool.or_true]) with ⟨rfl, reached⟩
  rw [Outline.number_eq, Outline.preorder_node] at reached
  refine ⟨rfl, reached.tail ?_⟩
  rw [Outline.place?, Outline.kind, Pattern.boundName?_nodeKind, none, Option.map_none]

theorem Reached.askedInside {condition : Outline α} {nodes : List (Outline α)}
    {contents : Contents α} {bound : Named (Value α)}
    (reached : matcher.Reached (condition :: nodes) contents bound)
    (isCondition : condition.kind.isCondition) (accepted : Bool) :
    matcher.AskedInside ⟨.condition, ⟨Named.firsts bound⟩, accepted⟩ := by
  rcases reached with ⟨before, after, deposits, split, covers, -, rfl⟩
  refine ⟨rfl, before, condition, nodes ++ after, split, isCondition, ?_⟩
  change Named.names _ = _
  rw [Named.names_firsts, ← covers, Named.names, List.map_map, List.map_map]
  rfl

end

section

variable [BEq α] {matcher : Matcher α} {source : Pattern α} {registry : Registry α}
variable {options : Options}

/-- What a repetition offers: as many passes of its unit as each of the counts says. -/
theorem mirrors_counts {unit : Pattern α} (ofUnit : matcher.MirrorsItem registry
      options.defaultGreed unit) (orderly : unit.Orderly)
    (unconditional : unit.holdsCondition = false) {first depth repetition : Nat}
    (opens : matcher.openers.getD repetition [] =
      (number options.defaultGreed unit first).1.places.map fun place => (place.2, depth))
    (fits : matcher.Fits registry (depth + 1) (number options.defaultGreed unit first).1)
    (minimum : Nat) (greed : Greed) (contents : Contents α) (bound : Named (Value α))
    (values : List (Value α)) :
    Mirrors matcher.AskedInside
      (Corresponds depth (number options.defaultGreed unit first).1.places contents bound)
      ((greed.counts minimum values.length).flatMap (Turns.repeated
        (if (number options.defaultGreed unit first).1.kind.isSequence then
          .inl (matcher.partTurns (number options.defaultGreed unit first).1)
        else .inr (matcher.itemTurns (number options.defaultGreed unit first).1)) values
        (matcher.openContents repetition contents)))
      ((greed.counts minimum values.length).flatMap (Way.repeated unit.boundNames
        (unit.unitWays registry options.defaultGreed) ⟨bound, values⟩)) := by
  have distinct : ((number options.defaultGreed unit first).1.places.map Prod.snd).Nodup :=
    Outline.nodup_ids_places ((Outline.spans_numbers options.defaultGreed).item unit first).nodup
  -- The unit holds no condition, so it does not matter that its passes start with nothing bound.
  have mirrorsUnit := fun contents => ofUnit first (depth + 1) contents [] orderly fits
    fun holds => absurd holds (by rw [unconditional]; exact Bool.false_ne_true)
  apply Mirrors.flatMap
  intro count member
  rw [Outline.kind_number, Pattern.isSequence_nodeKind, openContents_eq opens,
    ← Outline.names_places_number options.defaultGreed unit first, Pattern.unitWays]
  cases sequence : unit.isSequence with
  | true =>
      exact mirrors_repeated distinct
        (fun values contents => (mirrorsUnit contents).2 sequence values) contents bound values
        count
  | false =>
      have single := mirrors_repeated distinct
        (fun values contents => mirrors_single (mirrorsUnit contents).1 values) contents bound
        values count
      rwa [Turns.passes_single _ _ _ _ (Greed.mem_counts.mp member).2] at single

theorem mirrorsRow_repeated {unit : Pattern α} {items : List (Pattern α)} (minimum : Nat)
    (greed : Option Greed)
    (ofUnit : matcher.MirrorsItem registry options.defaultGreed unit)
    (ofItems : matcher.MirrorsRow registry options.defaultGreed items) :
    matcher.MirrorsRow registry options.defaultGreed
      (unit :: .repetition minimum greed :: items) := by
  intro first depth contents bound values orderly units fits informed
  rw [Outline.numberAll_repeated] at fits informed ⊢
  rcases fits with ⟨⟨opens, fitsUnit⟩, -, fitsItems⟩
  rw [rowTurns, Pattern.rowWays_repeated]
  apply mirrors_andThen (mirrors_counts ofUnit (orderly unit List.mem_cons_self) (units.1 rfl)
    opens fitsUnit minimum (greed.getD options.defaultGreed) contents bound values)
  intro contents' bound' left recorded
  apply ofItems _ depth contents' bound' left _ units.2.2 fitsItems
  · intro holds
    rcases informed.after recorded (by rw [List.any_cons, holds, Bool.or_true]) with ⟨rfl, reached⟩
    exact ⟨rfl, reached.tail rfl⟩
  · exact fun pattern member =>
      orderly pattern (List.mem_cons_of_mem _ (List.mem_cons_of_mem _ member))

theorem mirrorsRow_plain (compiled : matcher.Compiled source registry options)
    {item : Pattern α} {items : List (Pattern α)} (leads : Pattern.repetitionLeads items = false)
    (ofItem : matcher.MirrorsItem registry options.defaultGreed item)
    (ofItems : matcher.MirrorsRow registry options.defaultGreed items) :
    matcher.MirrorsRow registry options.defaultGreed (item :: items) := by
  intro first depth contents bound values orderly units fits informed
  rw [Outline.numberAll_cons] at fits informed ⊢
  have leads' := leadingRepetition?_numberAll options.defaultGreed leads
    (number options.defaultGreed item first).2
  rcases fits with ⟨fitsItem, fitsItems⟩
  rw [Outline.surrounding?, if_pos rfl, leads'] at fitsItem
  obtain ⟨single, sequence⟩ := ofItem first depth contents bound (orderly item List.mem_cons_self)
    fitsItem informed.head
  have others : ∀ contents' bound' left,
      Recorded depth (number options.defaultGreed item first).1.places contents bound contents'
        bound' → _ :=
    fun contents' bound' left recorded =>
      ofItems (number options.defaultGreed item first).2 depth contents' bound' left
        (fun pattern member => orderly pattern (List.mem_cons_of_mem _ member)) units.2 fitsItems
        (informed.after recorded)
  have onward : ∀ {turns : Turns α (Place α)} {ways : List (Way α)},
      Mirrors matcher.AskedInside
        (Corresponds depth (number options.defaultGreed item first).1.places contents bound)
        turns ways →
      Mirrors matcher.AskedInside
        (Corresponds depth (((number options.defaultGreed item first).1 ::
          (numberAll options.defaultGreed items
            (number options.defaultGreed item first).2).1).flatMap Outline.places)
          contents bound)
        (Turns.andThen turns fun place => matcher.rowTurns
          (numberAll options.defaultGreed items (number options.defaultGreed item first).2).1
          place.left place.contents)
        (ways.flatMap (Pattern.rowWays registry options.defaultGreed items)) :=
    fun mirrors => mirrors_andThen mirrors others
  have value := onward (mirrors_single single values)
  rw [Turns.andThen_single] at value
  rw [rowTurns_plain matcher leads', Pattern.rowWays_plain registry _ leads, Outline.kind_number]
  cases item with
  | condition accepts =>
      rcases informed rfl with ⟨rfl, reached⟩
      simp only [Pattern.nodeKind, compiled.bindingsIn_eq reached]
      cases values with
      | nil =>
          exact .asked (reached.askedInside rfl _)
            ((others contents bound [] (.refl 0 contents bound)).ite _)
      | cons value left => exact .nil
  | repetition minimum greed => exact .nil
  | sequence parts => exact onward (sequence rfl values)
  | _ => exact value

theorem mirrors_all {operands : List (Pattern α)}
    (ofOperands : ∀ operand ∈ operands, matcher.MirrorsItem registry options.defaultGreed operand)
    (orderly : ∀ operand ∈ operands, operand.Orderly) (first : Nat) {depth : Nat}
    {contents : Contents α} {bound : Named (Value α)}
    (fits : matcher.FitsRow registry depth false (numberAll options.defaultGreed operands first).1)
    (informed : matcher.Informed (operands.any Pattern.holdsCondition) depth
      ((numberAll options.defaultGreed operands first).1.flatMap Outline.preorder) contents bound)
    (value : Value α) :
    Mirrors matcher.AskedInside
      (Recorded depth ((numberAll options.defaultGreed operands first).1.flatMap Outline.places)
        contents bound)
      (matcher.allTurns (numberAll options.defaultGreed operands first).1 value contents)
      (Pattern.allWays registry options.defaultGreed operands value bound) := by
  induction operands generalizing first contents bound with
  | nil => exact .reached (.refl depth contents bound)
  | cons operand operands induction =>
      rw [Outline.numberAll_cons] at fits informed ⊢
      have here := (ofOperands operand List.mem_cons_self first depth contents bound
        (orderly operand List.mem_cons_self) fits.1 informed.head).1 value
      apply here.andThen
      intro contents' bound' recorded
      have others := induction
        (fun other member => ofOperands other (List.mem_cons_of_mem _ member))
        (fun other member => orderly other (List.mem_cons_of_mem _ member)) _ fits.2
        (informed.after recorded)
      exact others.imp fun _ _ later => recorded.trans later

theorem mirrors_any {operands : List (Pattern α)}
    (ofOperands : ∀ operand ∈ operands, matcher.MirrorsItem registry options.defaultGreed operand)
    (orderly : ∀ operand ∈ operands, operand.Orderly) (first : Nat) {depth : Nat}
    (contents : Contents α) (bound : Named (Value α))
    (fits : matcher.FitsRow registry depth false (numberAll options.defaultGreed operands first).1)
    (none : ∀ operand ∈ operands, operand.holdsCondition = false) (value : Value α) :
    Mirrors matcher.AskedInside (fun _ _ => True)
      (matcher.anyTurns (numberAll options.defaultGreed operands first).1 value contents)
      (operands.flatMap fun operand =>
        operand.itemWays registry options.defaultGreed value bound) := by
  induction operands generalizing first with
  | nil => exact .nil
  | cons operand operands induction =>
      rw [Outline.numberAll_cons] at fits ⊢
      have unconditional := none operand List.mem_cons_self
      have here := (ofOperands operand List.mem_cons_self first depth contents bound
        (orderly operand List.mem_cons_self) fits.1
        (fun holds => absurd holds (by rw [unconditional]; exact Bool.false_ne_true))).1 value
      have others := induction
        (fun other member => ofOperands other (List.mem_cons_of_mem _ member))
        (fun other member => orderly other (List.mem_cons_of_mem _ member)) _ fits.2
        (fun other member => none other (List.mem_cons_of_mem _ member))
      exact (here.imp fun _ _ _ => trivial).append others

/-- The verdict of an alternative binds nothing. -/
theorem mirrors_alternative {pattern : Pattern α} (orderly : pattern.Orderly)
    (isAlternative : pattern.isAlternative)
    (ofParts : ∀ part ∈ pattern.parts, matcher.MirrorsItem registry options.defaultGreed part)
    (first depth : Nat) (contents : Contents α) (bound : Named (Value α))
    (fits : matcher.FitsRow registry depth false
      (numberAll options.defaultGreed pattern.parts (first + 1)).1)
    (expected : Bool) (value : Value α) :
    Mirrors matcher.AskedInside
      (Recorded depth
        ((numberAll options.defaultGreed pattern.parts (first + 1)).1.flatMap Outline.places)
        contents bound)
      (Turns.verdict expected contents (matcher.anyTurns
        (numberAll options.defaultGreed pattern.parts (first + 1)).1 value contents))
      (if (!Pattern.someWay registry options.defaultGreed pattern.parts value bound) = expected
        then [] else [bound]) := by
  have unbound := Outline.places_number_eq_nil options.defaultGreed
    (orderly.wellPlaced.unbound isAlternative) first
  rw [Outline.number_eq, Outline.places_node] at unbound
  have unconditional := orderly.wellPlaced.unconditional isAlternative
  rw [Pattern.holdsCondition_eq, Bool.or_eq_false_iff, List.any_eq_false] at unconditional
  have any := mirrors_any ofParts (fun part member => orderly.parts member) _ contents bound fits
    (fun part member => by simpa using unconditional.2 part member) value
  rw [(List.append_eq_nil_iff.mp unbound).2, Pattern.someWay_eq, Bool.not_not]
  exact any.verdict expected (.refl depth contents bound)

theorem mirrorsItem_of_parts {pattern : Pattern α}
    (ofParts : ∀ part ∈ pattern.parts, matcher.MirrorsItem registry options.defaultGreed part)
    (ofRow : matcher.MirrorsRow registry options.defaultGreed pattern.parts) :
    matcher.MirrorsItem registry options.defaultGreed pattern := by
  intro first depth contents bound orderly fits informed
  have partsOrderly : ∀ part ∈ pattern.parts, part.Orderly :=
    fun part member => orderly.parts member
  have placed := orderly.wellPlaced
  have informedParts := informed.parts
  rw [Outline.number_eq] at fits ⊢
  rcases fits with ⟨fitsBind, fitsShape, fitsParts⟩
  have row : pattern.boundName? = none → pattern.isOrdered → ∀ values, _ :=
    fun none ordered values => ofRow (first + 1) depth contents bound values partsOrderly
      placed.unitsUnconditional (by rwa [Pattern.isOrdered_nodeKind, ordered] at fitsParts)
      (informedParts none)
  rw [Outline.places_node]
  refine ⟨fun value => ?_, fun sequence values => ?_⟩
  · cases pattern with
    | bind name =>
        change Mirrors _ _ [.reached (contents.put first (matcher.depth first) (.scalar value))] _
        rw [fitsBind name rfl]
        exact .reached (.put depth name first contents bound value)
    | literal expected => exact (Mirrors.reached (.refl depth contents bound)).ite _
    | compared expected accepts => exact (Mirrors.reached (.refl depth contents bound)).ite _
    | kind expected => exact (Mirrors.reached (.refl depth contents bound)).ite _
    | wildcard => exact .reached (.refl depth contents bound)
    | deconstruct shape items =>
        rcases fitsShape shape rfl with ⟨decomposer, found, listed⟩
        rw [Pattern.nodeKind, itemTurns, listed, Pattern.itemWays, Registry.decompose, found]
        simp only [Option.bind_some, Except.map]
        cases decomposer value with
        | none => exact .nil
        | some parts => exact mirrors_exhausted (row rfl rfl parts)
    | keyed shape entries =>
        rw [Pattern.nodeKind, itemTurns, Pattern.itemWays]
        cases shape.lookup? (entries.map Prod.fst) value with
        | none => exact .nil
        | some parts =>
            have alone := placed.alone rfl
            simp only [← Pattern.complete_rowWays_entries _ _ alone]
            exact mirrors_exhausted (row rfl rfl parts)
    | sequence items => exact .nil
    | and operands => exact mirrors_all ofParts partsOrderly _ fitsParts (informedParts rfl) value
    | or operands =>
        have verdict := mirrors_alternative orderly rfl ofParts first depth contents bound
          fitsParts true value
        rw [Pattern.parts] at verdict
        rw [Pattern.itemWays]
        cases some : Pattern.someWay registry options.defaultGreed operands value bound <;>
          rw [some] at verdict <;> exact verdict
    | not operands =>
        have verdict := mirrors_alternative orderly rfl ofParts first depth contents bound
          fitsParts false value
        rw [Pattern.parts] at verdict
        rw [Pattern.itemWays]
        cases some : Pattern.someWay registry options.defaultGreed operands value bound <;>
          rw [some] at verdict <;> exact verdict
    | repetition minimum greed => exact .nil
    | condition accepts => exact .nil
  · cases pattern with
    | sequence items => exact row rfl rfl values
    | _ => cases sequence

theorem mirrors_items (compiled : matcher.Compiled source registry options) :
    Pattern.Inductive (matcher.MirrorsItem registry options.defaultGreed)
      (matcher.MirrorsRow registry options.defaultGreed) where
  whole _ ofParts ofRow := mirrorsItem_of_parts ofParts ofRow
  nil _ depth contents bound values _ _ _ _ := .reached (.refl depth contents bound values)
  repeated _ minimum greed _ ofUnit ofItems := mirrorsRow_repeated minimum greed ofUnit ofItems
  plain _ _ leads ofItem ofItems := mirrorsRow_plain compiled leads ofItem ofItems

end

/-! ## A whole search -/

/-- A search begins with nothing bound. -/
theorem informed_at_start (matcher : Matcher α) (conditional : Bool) :
    matcher.Informed conditional 0 ([matcher.outline].flatMap Outline.preorder)
      (Array.replicate matcher.tree.size none) [] :=
  fun _ => ⟨rfl, [], [], [], by simp, rfl, rfl, rfl⟩

section

variable [BEq α] {matcher : Matcher α} {pattern : Pattern α} {registry : Registry α}
variable {options : Options} (compiled : matcher.Compiled pattern registry options)
include compiled

/-- What a search comes upon are the ways of the pattern, with all variables recorded. -/
theorem Compiled.mirrors_search (value : Value α) :
    Mirrors matcher.AskedInside
      (Recorded 0 matcher.outline.places (Array.replicate matcher.tree.size none) [])
      (.exhausted (matcher.rowTurns [matcher.outline] [value]
        (Array.replicate matcher.tree.size none)))
      (Way.complete (Pattern.rowWays registry options.defaultGreed [pattern] ⟨[], [value]⟩)) := by
  have row := (mirrors_items compiled).row [pattern] 0 0 (Array.replicate matcher.tree.size none) []
    [value] compiled.orderly_alone ⟨fun leads => absurd leads Bool.false_ne_true, trivial⟩
  rw [compiled.numberAll_alone] at row
  have search := mirrors_exhausted (row ⟨compiled.fits, trivial⟩ (informed_at_start matcher _))
  rwa [List.flatMap_cons, List.flatMap_nil, List.append_nil] at search

theorem Compiled.bindingsIn_of_recorded {contents : Contents α} {bound : Named (Value α)}
    (recorded : Recorded 0 matcher.outline.places (Array.replicate matcher.tree.size none) []
      contents bound) :
    matcher.bindingsIn contents = ⟨Named.firsts bound⟩ := by
  rcases recorded with ⟨deposits, covers, isDeposit, isBound⟩
  have reached : matcher.Reached [] contents bound :=
    ⟨matcher.outline.preorder, [], deposits, by simp, covers, isDeposit, isBound⟩
  exact compiled.bindingsIn_eq reached

theorem Compiled.finalTrial_eq {contents : Contents α} {bound : Named (Value α)}
    (recorded : Recorded 0 matcher.outline.places (Array.replicate matcher.tree.size none) []
      contents bound)
    (guard : Option (Bindings α → Bool)) :
    matcher.finalTrial guard contents =
      if Named.agree bound then
        match guard with
        | none => .success ⟨Named.firsts bound⟩
        | some accepts =>
          .after ⟨.guard, ⟨Named.firsts bound⟩, accepts ⟨Named.firsts bound⟩⟩
            (if accepts ⟨Named.firsts bound⟩ then .success ⟨Named.firsts bound⟩ else .failure)
      else .failure := by
  rw [finalTrial, compiled.namesAgree_eq recorded, compiled.bindingsIn_of_recorded recorded]
  cases Named.agree bound <;> cases guard <;> rfl

end

end Matcher

end Destructure
