import Destructure.Proofs.Matching.Compilation
import Destructure.Proofs.Pattern.Formation

/-!
Replacing a row of items somewhere in a pattern. Nothing around the row sees a difference between
two rows that bind the same names and agree on whether they hold conditions; so a pattern that
compiles goes on to compile if the new row is a row of a well-formed pattern itself.
-/

namespace Destructure

variable {α : Type}

/-- What links one element to the next may be replaced from one link to another. -/
theorem isChain_replace {β : Type} {related : β → β → Prop} {before middle middle' after : List β}
    (chain : (before ++ (middle ++ after)).IsChain related) (inner : middle'.IsChain related)
    (nonempty : middle ≠ []) (nonempty' : middle' ≠ [])
    (front : ∀ item, ∀ first ∈ middle.head?, ∀ first' ∈ middle'.head?,
      related item first → related item first')
    (back : ∀ item ∈ after.head?, ∀ last ∈ middle.getLast?, ∀ last' ∈ middle'.getLast?,
      related last item → related last' item) :
    (before ++ (middle' ++ after)).IsChain related := by
  simp only [List.isChain_append, List.head?_append] at chain ⊢
  rcases chain with ⟨chainBefore, ⟨-, chainAfter, joins⟩, leads⟩
  refine ⟨chainBefore, ⟨inner, chainAfter, ?_⟩, ?_⟩
  · intro last' isLast' item isNext
    have isLast := List.getLast?_eq_some_getLast nonempty
    exact back item isNext _ isLast last' isLast' (joins _ isLast item isNext)
  · intro item isPrevious first' isFirst'
    have isFirst := List.head?_eq_some_head nonempty
    have isFirst'' := List.head?_eq_some_head nonempty'
    rw [isFirst'', Option.some_or, ← isFirst''] at isFirst'
    rw [isFirst, Option.some_or] at leads
    exact front item _ isFirst first' isFirst' (leads item isPrevious _ rfl)

theorem isChain_replace_one {β : Type} {related : β → β → Prop} {before after : List β}
    {item item' : β} (chain : (before ++ item :: after).IsChain related)
    (front : ∀ other, related other item → related other item')
    (back : ∀ other, related item other → related item' other) :
    (before ++ item' :: after).IsChain related := by
  have whole : (before ++ ([item] ++ after)).IsChain related := chain
  apply isChain_replace whole (.singleton item') (List.cons_ne_nil _ _) (List.cons_ne_nil _ _)
  · rintro other _ ⟨⟩ _ ⟨⟩
    exact front other
  · rintro other _ _ ⟨⟩ _ ⟨⟩
    exact back other

namespace Pattern

def withParts : Pattern α → List (Pattern α) → Pattern α
  | deconstruct shape _, parts => deconstruct shape parts
  | keyed shape entries, parts => keyed shape ((entries.map Prod.fst).zip parts)
  | sequence _, parts => sequence parts
  | and _, parts => and parts
  | or _, parts => or parts
  | not _, parts => not parts
  | literal value, _ => literal value
  | compared value accepts, _ => compared value accepts
  | kind category, _ => kind category
  | bind name, _ => bind name
  | wildcard, _ => wildcard
  | repetition minimum greed, _ => repetition minimum greed
  | condition accepts, _ => condition accepts

/-- One row of parts somewhere in the pattern is changed, and nothing else. -/
inductive Somewhere (change : List (Pattern α) → List (Pattern α) → Prop) :
    Pattern α → Pattern α → Prop
  | here {node : Pattern α} {parts : List (Pattern α)} (changed : change node.parts parts) :
      Somewhere change node (node.withParts parts)
  | inside {node part part' : Pattern α} {before after : List (Pattern α)}
      (split : node.parts = before ++ part :: after) (below : Somewhere change part part') :
      Somewhere change node (node.withParts (before ++ part' :: after))

section

variable {node : Pattern α} {parts : List (Pattern α)}

@[simp] theorem isRepetition_withParts :
    (node.withParts parts).isRepetition = node.isRepetition := by
  cases node <;> rfl

@[simp] theorem isSequence_withParts : (node.withParts parts).isSequence = node.isSequence := by
  cases node <;> rfl

@[simp] theorem isCondition_withParts : (node.withParts parts).isCondition = node.isCondition := by
  cases node <;> rfl

@[simp] theorem isAlternative_withParts :
    (node.withParts parts).isAlternative = node.isAlternative := by
  cases node <;> rfl

@[simp] theorem holdsItems_withParts : (node.withParts parts).holdsItems = node.holdsItems := by
  cases node <;> rfl

@[simp] theorem isOrdered_withParts : (node.withParts parts).isOrdered = node.isOrdered := by
  cases node <;> rfl

@[simp] theorem boundName?_withParts : (node.withParts parts).boundName? = node.boundName? := by
  cases node <;> rfl

@[simp] theorem shapeName?_withParts : (node.withParts parts).shapeName? = node.shapeName? := by
  cases node with
  | deconstruct shape items => cases shape <;> rfl
  | _ => rfl

theorem parts_withParts_of_holdsItems (holds : node.holdsItems) (parts : List (Pattern α)) :
    (node.withParts parts).parts = parts := by
  cases node with
  | deconstruct shape items => rfl
  | sequence items => rfl
  | _ => cases holds

theorem parts_withParts_of_length (nonempty : node.parts ≠ [])
    (same : parts.length = node.parts.length) : (node.withParts parts).parts = parts := by
  cases node with
  | keyed shape entries =>
      apply List.map_snd_zip
      simp [same, Pattern.parts]
  | deconstruct shape items => rfl
  | sequence items => rfl
  | and operands => rfl
  | or operands => rfl
  | not operands => rfl
  | _ => exact absurd rfl nonempty

theorem withParts_withParts (same : parts.length = node.parts.length) :
    (node.withParts parts).withParts node.parts = node := by
  cases node with
  | keyed shape entries =>
      have keys : ((entries.map Prod.fst).zip parts).map Prod.fst = entries.map Prod.fst := by
        apply List.map_fst_zip
        simp [same, Pattern.parts]
      rw [withParts, withParts, keys, Pattern.parts, ← List.unzip_fst, ← List.unzip_snd,
        List.zip_unzip]
  | _ => rfl

/-- A change that keeps the number of parts can be taken back. -/
theorem Somewhere.flip {change : List (Pattern α) → List (Pattern α) → Prop}
    {pattern pattern' : Pattern α} (somewhere : Somewhere change pattern pattern')
    (same : ∀ parts parts', change parts parts' → parts ≠ [] ∧ parts'.length = parts.length) :
    Somewhere (fun parts parts' => change parts' parts) pattern' pattern := by
  induction somewhere with
  | @here node parts changed =>
      rcases same _ _ changed with ⟨nonempty, length⟩
      have back : Somewhere (fun parts parts' => change parts' parts) (node.withParts parts)
          ((node.withParts parts).withParts node.parts) := by
        apply Somewhere.here
        rwa [parts_withParts_of_length nonempty length]
      rwa [withParts_withParts length] at back
  | @inside node part part' before after split below induction =>
      have length : (before ++ part' :: after).length = node.parts.length := by simp [split]
      have nonempty : node.parts ≠ [] := by simp [split]
      have back := Somewhere.inside (parts_withParts_of_length nonempty length) induction
      rwa [← split, withParts_withParts length] at back

end

/-! ## What is seen from outside -/

/-- Validation sees no difference between two patterns that stand at the same place. -/
structure Resembles (pattern pattern' : Pattern α) : Prop where
  isRepetition : pattern'.isRepetition = pattern.isRepetition
  isSequence : pattern'.isSequence = pattern.isSequence
  isCondition : pattern'.isCondition = pattern.isCondition
  holdsCondition : pattern'.holdsCondition = pattern.holdsCondition
  boundNames : pattern'.boundNames = pattern.boundNames

structure Replaces [BEq α] (items items' : List (Pattern α)) : Prop where
  nonempty : items' ≠ []
  founded : Founded items'
  conditionsLast : ConditionsLast items'
  made : ∀ item ∈ items', item.Made
  holdsCondition : items'.any Pattern.holdsCondition = items.any Pattern.holdsCondition
  boundNames : items'.flatMap Pattern.boundNames = items.flatMap Pattern.boundNames
  shapeNames : ∀ name ∈ items'.flatMap Pattern.shapeNames, name ∈ items.flatMap Pattern.shapeNames

theorem shapeNames_of_parts (pattern : Pattern α) :
    pattern.shapeNames = pattern.shapeName?.toList ++ pattern.parts.flatMap shapeNames := by
  rw [shapeNames, preorder_eq, List.filterMap_cons, List.filterMap_flatMap]
  cases pattern.shapeName? <;> rfl

section

variable {node part part' : Pattern α} {before after parts : List (Pattern α)}

theorem resembles_withParts (same : (node.withParts parts).parts = parts)
    (holds : parts.any holdsCondition = node.parts.any holdsCondition)
    (names : parts.flatMap boundNames = node.parts.flatMap boundNames) :
    Resembles node (node.withParts parts) where
  isRepetition := isRepetition_withParts
  isSequence := isSequence_withParts
  isCondition := isCondition_withParts
  holdsCondition := by
    rw [holdsCondition_eq, holdsCondition_eq, same, holds, isCondition_withParts]
  boundNames := by rw [boundNames_eq, boundNames_eq, same, names, boundName?_withParts]

theorem parts_withParts_inside (split : node.parts = before ++ part :: after)
    (part' : Pattern α) :
    (node.withParts (before ++ part' :: after)).parts = before ++ part' :: after := by
  apply parts_withParts_of_length
  · simp [split]
  · simp [split]

theorem Resembles.inside (resembles : Resembles part part')
    (split : node.parts = before ++ part :: after) :
    Resembles node (node.withParts (before ++ part' :: after)) := by
  apply resembles_withParts (parts_withParts_inside split part')
  · simp [split, resembles.holdsCondition]
  · simp [split, resembles.boundNames]

theorem Resembles.takesValue (resembles : Resembles part part') :
    part'.takesValue = part.takesValue := by
  rw [Pattern.takesValue, Pattern.takesValue, resembles.isRepetition, resembles.isSequence,
    resembles.isCondition]

theorem Founded.inside (founded : Founded (before ++ part :: after))
    (resembles : Resembles part part') : Founded (before ++ part' :: after) := by
  rw [founded_iff, ← List.cons_append] at founded ⊢
  apply isChain_replace_one founded
  · intro item
    rw [resembles.isRepetition]
    exact id
  · intro item
    rw [resembles.isRepetition]
    exact id

theorem ConditionsLast.inside (last : ConditionsLast (before ++ part :: after))
    (resembles : Resembles part part') : ConditionsLast (before ++ part' :: after) := by
  rw [conditionsLast_iff] at last ⊢
  apply isChain_replace_one last
  · intro item
    rw [resembles.isCondition]
    exact id
  · intro item
    rw [resembles.holdsCondition]
    exact id

variable [BEq α]

theorem Filled.withParts (filled : node.Filled) (same : parts.length = node.parts.length) :
    (node.withParts parts).Filled := by
  have nonempty : node.parts ≠ [] → parts ≠ [] := by
    rintro some rfl
    exact some (List.length_eq_zero_iff.mp same.symm)
  cases node with
  | sequence items => exact nonempty filled
  | and operands => exact nonempty filled
  | or operands => exact nonempty filled
  | not operands => exact same.trans filled
  | keyed shape entries =>
      have keys : (((entries.map Prod.fst).zip parts).map Prod.fst) = entries.map Prod.fst := by
        apply List.map_fst_zip
        simp [same, Pattern.parts]
      change shape.Admits _
      rwa [keys]
  | _ => trivial

/-- A node does not notice that one of its parts has been replaced. -/
theorem WellMade.inside (wellMade : node.WellMade) (resembles : Resembles part part')
    (split : node.parts = before ++ part :: after) :
    (node.withParts (before ++ part' :: after)).WellMade := by
  have whole := resembles.inside split
  have parts := parts_withParts_inside split part'
  refine ⟨⟨?_, ?_, ?_, ?_⟩, ?_, ?_⟩
  · intro alternative
    rw [whole.boundNames]
    exact wellMade.placed.unbound (isAlternative_withParts ▸ alternative)
  · intro alternative
    rw [whole.holdsCondition]
    exact wellMade.placed.unconditional (isAlternative_withParts ▸ alternative)
  · intro closed
    have alone := wellMade.placed.alone (holdsItems_withParts ▸ closed)
    rw [split, List.forall_mem_append, List.forall_mem_cons] at alone
    rw [parts, List.forall_mem_append, List.forall_mem_cons, resembles.takesValue]
    exact alone
  · intro ordered
    rw [parts]
    have last := wellMade.placed.conditionsLast (isOrdered_withParts ▸ ordered)
    exact (split ▸ last).inside resembles
  · rw [parts]
    exact (split ▸ wellMade.founded).inside resembles
  · apply wellMade.filled.withParts
    simp [split]

/-- A row of items may be replaced where there are items. -/
theorem Replaces.wellMade (replaces : Replaces node.parts parts) (holds : node.holdsItems) :
    (node.withParts parts).WellMade := by
  have same := parts_withParts_of_holdsItems holds parts
  have plain : (node.withParts parts).isAlternative = false := by
    cases node with
    | or operands => cases holds
    | not operands => cases holds
    | _ => rfl
  refine ⟨⟨?_, ?_, ?_, ?_⟩, ?_, ?_⟩
  · intro alternative
    rw [plain] at alternative
    cases alternative
  · intro alternative
    rw [plain] at alternative
    cases alternative
  · intro closed
    rw [holdsItems_withParts, holds] at closed
    cases closed
  · intro _
    rw [same]
    exact replaces.conditionsLast
  · rw [same]
    exact replaces.founded
  · cases node with
    | deconstruct shape items => trivial
    | sequence items => exact replaces.nonempty
    | _ => cases holds

/-- Items in the middle of a row may be replaced if those next to them see no difference. -/
theorem Replaces.middle {middle middle' : List (Pattern α)} (inner : Replaces middle middle')
    (made : ∀ item ∈ before ++ (middle ++ after), item.Made)
    (founded : Founded (before ++ (middle ++ after)))
    (last : ConditionsLast (before ++ (middle ++ after))) (nonempty : middle ≠ [])
    (leads : ∀ first ∈ middle.head?, first.isCondition →
      ∀ first' ∈ middle'.head?, first'.isCondition)
    (ends : ∀ final ∈ middle.getLast?, ∀ final' ∈ middle'.getLast?,
      final'.holdsCondition → final.holdsCondition)
    (repeats : ∀ final ∈ middle.getLast?, ∀ final' ∈ middle'.getLast?, repetitionLeads after →
      final.isRepetition = false → final'.isRepetition = false) :
    Replaces (before ++ (middle ++ after)) (before ++ (middle' ++ after)) where
  nonempty := by simp [inner.nonempty]
  founded := by
    have innerFounded := inner.founded
    rw [founded_iff, ← List.cons_append] at founded ⊢
    rw [founded_iff, List.isChain_cons] at innerFounded
    apply isChain_replace founded innerFounded.2 nonempty inner.nonempty
    · intro item first _ first' isFirst' _ isRepetition
      cases innerFounded.1 first' isFirst' isRepetition
    · intro item isNext final isFinal final' isFinal' related isRepetition
      apply repeats final isFinal final' isFinal' _ (related isRepetition)
      rw [repetitionLeads, Option.mem_def.mp isNext]
      exact isRepetition
  conditionsLast := by
    have innerLast := inner.conditionsLast
    rw [conditionsLast_iff] at last innerLast ⊢
    apply isChain_replace last innerLast nonempty inner.nonempty
    · intro item first isFirst first' isFirst' related holds
      exact leads first isFirst (related holds) first' isFirst'
    · intro item _ final isFinal final' isFinal' related holds
      exact related (ends final isFinal final' isFinal' holds)
  made := by
    rw [List.forall_mem_append, List.forall_mem_append] at made ⊢
    exact ⟨made.1, inner.made, made.2.2⟩
  holdsCondition := by
    simp only [List.any_append, inner.holdsCondition]
  boundNames := by simp only [List.flatMap_append, inner.boundNames]
  shapeNames := by
    simp only [List.flatMap_append, List.mem_append]
    exact fun name => Or.imp_right (Or.imp_left (inner.shapeNames name))

/-- The same among the parts of a node, where the row has something in it that is no pattern by
itself. -/
theorem Made.replaces {middle middle' : List (Pattern α)} (made : node.Made)
    (split : node.parts = before ++ (middle ++ after)) (member : part ∈ node.parts)
    (isItem : part.takesValue = false) (inner : Replaces middle middle') (nonempty : middle ≠ [])
    (leads : ∀ first ∈ middle.head?, first.isCondition →
      ∀ first' ∈ middle'.head?, first'.isCondition)
    (ends : ∀ final ∈ middle.getLast?, ∀ final' ∈ middle'.getLast?,
      final'.holdsCondition → final.holdsCondition)
    (repeats : ∀ final ∈ middle.getLast?, ∀ final' ∈ middle'.getLast?, repetitionLeads after →
      final.isRepetition = false → final'.isRepetition = false) :
    node.holdsItems ∧ Replaces node.parts (before ++ (middle' ++ after)) := by
  rcases (made_iff node).mp made with ⟨wellMade, madeParts⟩
  have holds := wellMade.holdsItems member isItem
  have founded := wellMade.founded
  have last := wellMade.placed.conditionsLast (isOrdered_of_holdsItems holds)
  rw [split] at madeParts founded last ⊢
  exact ⟨holds, inner.middle madeParts founded last nonempty leads ends repeats⟩

/-! ## The whole pattern -/

variable {change : List (Pattern α) → List (Pattern α) → Prop} {pattern pattern' : Pattern α}

/-- Where the items that are changed are replaced by others that may take their place, the pattern
keeps everything that compilation looks at. -/
theorem Somewhere.made (somewhere : Somewhere change pattern pattern')
    (replaces : ∀ (node : Pattern α) parts, node.Made → change node.parts parts →
      node.holdsItems ∧ Replaces node.parts parts) (made : pattern.Made) :
    pattern'.Made ∧ Resembles pattern pattern' ∧
      ∀ name ∈ pattern'.shapeNames, name ∈ pattern.shapeNames := by
  induction somewhere with
  | @here node parts changed =>
      rcases replaces node parts made changed with ⟨holds, replaces⟩
      have same := parts_withParts_of_holdsItems holds parts
      refine ⟨?_, ?_, ?_⟩
      · rw [made_iff, same]
        exact ⟨replaces.wellMade holds, replaces.made⟩
      · exact resembles_withParts same replaces.holdsCondition replaces.boundNames
      · simp only [shapeNames_of_parts, same, shapeName?_withParts, List.mem_append]
        exact fun name => Or.imp_right (replaces.shapeNames name)
  | @inside node part part' before after split below induction =>
      rcases (made_iff node).mp made with ⟨wellMade, madeParts⟩
      rw [split, List.forall_mem_append, List.forall_mem_cons] at madeParts
      rcases madeParts with ⟨madeBefore, madePart, madeAfter⟩
      rcases induction madePart with ⟨madePart', resembles, shapes⟩
      have parts := parts_withParts_inside split part'
      refine ⟨?_, resembles.inside split, ?_⟩
      · rw [made_iff, parts, List.forall_mem_append, List.forall_mem_cons]
        exact ⟨wellMade.inside resembles split, madeBefore, madePart', madeAfter⟩
      · simp only [shapeNames_of_parts node, shapeNames_of_parts (node.withParts _), split, parts,
          shapeName?_withParts, List.flatMap_append, List.flatMap_cons, List.mem_append]
        intro name
        exact Or.imp_right (Or.imp_right (Or.imp_left (shapes name)))

end

end Pattern

namespace Matcher

section

variable [BEq α] {pattern pattern' : Pattern α} {registry : Registry α} {options : Options}

/-- Whether a pattern compiles, node by node. -/
theorem compile_eq_ok_iff_made :
    (∃ matcher, compile pattern registry options = .ok matcher) ↔
      (pattern.takesValue ∧ pattern.Made ∧
        (options.repeatedNames = .rejected → pattern.boundNames.Nodup)) ∧
      ∀ name ∈ pattern.shapeNames, registry.contains name := by
  rw [compile_eq_ok_iff, Pattern.malformed?_eq_none_iff, Pattern.wellFormed_iff_made]

theorem made_of_compile {matcher : Matcher α}
    (compiled : compile pattern registry options = .ok matcher) : pattern.Made :=
  (compile_eq_ok_iff_made.mp ⟨matcher, compiled⟩).1.2.1

/-- Where the items that are changed are replaced by others that may take their place, the pattern
goes on to compile. -/
theorem compiles_of_somewhere {change : List (Pattern α) → List (Pattern α) → Prop}
    (somewhere : Pattern.Somewhere change pattern pattern')
    (replaces : ∀ (node : Pattern α) parts, node.Made → change node.parts parts →
      node.holdsItems ∧ Pattern.Replaces node.parts parts)
    (compiles : ∃ matcher, compile pattern registry options = .ok matcher) :
    ∃ matcher, compile pattern' registry options = .ok matcher := by
  rw [compile_eq_ok_iff_made] at compiles ⊢
  rcases compiles with ⟨⟨takes, made, names⟩, registered⟩
  rcases somewhere.made replaces made with ⟨made', resembles, shapes⟩
  refine ⟨⟨?_, made', ?_⟩, ?_⟩
  · rwa [resembles.takesValue]
  · rwa [resembles.boundNames]
  · exact fun name among => registered name (shapes name among)

end

end Matcher

end Destructure
