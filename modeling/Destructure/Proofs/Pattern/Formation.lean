import Mathlib.Data.List.Chain
import Destructure.Proofs.Pattern.Units

/-!
Well-formedness node by node. Whether a pattern is well-formed can be seen from each of its nodes
and the parts directly inside it, without paths: only that the whole pattern stands by itself, and
that names may have to be different, is not said of single nodes. This is the form in which a
change at one place of a pattern is looked at.
-/

namespace Destructure

variable {α : Type}

structure KeyedShape.Admits [BEq α] (shape : KeyedShape) (keys : List (Value α)) : Prop where
  nonempty : keys ≠ []
  apart : keys.Pairwise fun key key' => (key == key') = false
  /-- The keys of a record name its fields. -/
  fields : ∀ tag, shape = .record tag →
    (∀ key ∈ keys, key.text?.isSome) ∧ keys.Pairwise fun key key' => key.text? ≠ key'.text?

namespace Pattern

def Filled [BEq α] : Pattern α → Prop
  | sequence parts | and parts | or parts => parts ≠ []
  | not operands => operands.length = 1
  | keyed shape entries => shape.Admits (entries.map Prod.fst)
  | literal _ | compared _ _ | kind _ | bind _ | wildcard | deconstruct _ _ | repetition _ _
  | condition _ => True

structure WellMade [BEq α] (node : Pattern α) : Prop where
  placed : node.WellPlaced
  founded : Founded node.parts
  filled : node.Filled

def Made [BEq α] (pattern : Pattern α) : Prop := ∀ node ∈ pattern.preorder, node.WellMade

theorem made_iff [BEq α] (pattern : Pattern α) :
    pattern.Made ↔ pattern.WellMade ∧ ∀ part ∈ pattern.parts, part.Made := by
  rw [Made, preorder_eq, List.forall_mem_cons]
  apply and_congr_right
  intro _
  simp only [List.mem_flatMap, Made]
  constructor
  · intro below part member node inside
    exact below node ⟨part, member, inside⟩
  · rintro ofParts node ⟨part, member, inside⟩
    exact ofParts part member node inside

/-- Only among items there is anything that is no pattern by itself. -/
theorem WellMade.holdsItems [BEq α] {node part : Pattern α} (wellMade : node.WellMade)
    (member : part ∈ node.parts) (isItem : part.takesValue = false) : node.holdsItems := by
  apply Classical.byContradiction
  intro closed
  have takes := wellMade.placed.alone (Bool.eq_false_iff.mpr closed) part member
  rw [isItem] at takes
  cases takes

/-! ## Nodes and paths -/

theorem mem_preorder_of_at? {pattern node : Pattern α} {path : List Nat}
    (present : pattern.at? path = some node) : node ∈ pattern.preorder := by
  induction path generalizing pattern with
  | nil =>
      cases present
      rw [preorder_eq]
      exact List.mem_cons_self
  | cons place path induction =>
      rcases Option.bind_eq_some_iff.mp present with ⟨part, atPlace, onward⟩
      rw [preorder_eq]
      apply List.mem_cons_of_mem
      exact List.mem_flatMap.mpr ⟨part, List.mem_of_getElem? atPlace, induction onward⟩

theorem holdsCondition_of_at? {node : Pattern α} {path : List Nat} {accepts : Bindings α → Bool}
    (present : node.at? path = some (.condition accepts)) : node.holdsCondition :=
  List.any_eq_true.mpr ⟨_, mem_preorder_of_at? present, rfl⟩

theorem exists_at?_of_mem_preorder : Compositional (α := α)
    (fun pattern => ∀ node ∈ pattern.preorder, ∃ path, pattern.at? path = some node)
    (fun patterns => ∀ part ∈ patterns, ∀ node ∈ part.preorder, ∃ path,
      part.at? path = some node) where
  whole pattern ofParts node inside := by
    rw [preorder_eq] at inside
    rcases List.mem_cons.mp inside with rfl | below
    · exact ⟨[], rfl⟩
    · rcases List.mem_flatMap.mp below with ⟨part, member, inside⟩
      rcases ofParts part member node inside with ⟨path, present⟩
      rcases List.getElem?_of_mem member with ⟨place, atPlace⟩
      refine ⟨place :: path, ?_⟩
      rw [at?, atPlace, Option.bind_some, present]
  nil := List.forall_mem_nil _
  cons _ _ ofItem ofItems := List.forall_mem_cons.mpr ⟨ofItem, ofItems⟩

/-- The number of a node is its place in preorder. -/
theorem preorder_at? {pattern node : Pattern α} {path : List Nat}
    (present : pattern.at? path = some node) (first : Nat) :
    pattern.preorder[pattern.numberAt first path - first]? = some node := by
  induction path generalizing pattern first with
  | nil =>
      cases present
      rw [numberAt_nil, Nat.sub_self, preorder_eq]
      rfl
  | cons place path induction =>
      rcases Option.bind_eq_some_iff.mp present with ⟨part, atPlace, onward⟩
      rcases List.getElem?_eq_some_iff.mp atPlace with ⟨inside, rfl⟩
      have there := induction onward (rowNumber pattern.parts (first + 1) place)
      have behind := le_numberAt pattern.parts[place] (rowNumber pattern.parts (first + 1) place)
        path
      have within := numberAt_lt onward (rowNumber pattern.parts (first + 1) place)
      rw [numberAt_cons atPlace, preorder_eq]
      generalize numberAt _ _ path = number at *
      rw [rowNumber] at *
      have split : pattern.parts.flatMap preorder =
          (pattern.parts.take place).flatMap preorder ++ (pattern.parts[place].preorder ++
            (pattern.parts.drop (place + 1)).flatMap preorder) := by
        rw [← List.flatMap_cons, ← List.flatMap_append, List.getElem_cons_drop,
          List.take_append_drop]
      have shift : number - first = number - (first + 1) + 1 := by omega
      rw [shift, List.getElem?_cons_succ, split, List.getElem?_append_right,
        List.getElem?_append_left]
      · rw [← there]
        congr 1
        rw [rowExtent]
        omega
      · rw [extent, rowExtent] at *
        omega
      · rw [rowExtent] at *
        omega

/-! ## Names -/

theorem nodup_boundNames_iff (pattern : Pattern α) :
    pattern.boundNames.Nodup ↔ ∀ path path' name, pattern.at? path = some (.bind name) →
      pattern.at? path' = some (.bind name) → path = path' := by
  rw [boundNames, List.Nodup, List.pairwise_filterMap, List.pairwise_iff_getElem]
  constructor
  · intro apart path path' name present present'
    have never : ∀ {path path' : List Nat}, pattern.at? path = some (.bind name) →
        pattern.at? path' = some (.bind name) →
        ¬pattern.numberAt 0 path < pattern.numberAt 0 path' := by
      intro path path' present present' before
      rcases List.getElem?_eq_some_iff.mp (preorder_at? present 0) with ⟨inside, equal⟩
      rcases List.getElem?_eq_some_iff.mp (preorder_at? present' 0) with ⟨inside', equal'⟩
      apply apart _ _ inside inside' before name _ name _ rfl
      · rw [equal]
        rfl
      · rw [equal']
        rfl
    apply numberAt_injective present present'
    apply Nat.le_antisymm
    · exact Nat.not_lt.mp (never present' present)
    · exact Nat.not_lt.mp (never present present')
  · intro single place place' inside inside' before name isBound name' isBound' same
    have found : ∀ {index : Nat} (within : index < pattern.preorder.length),
        ∃ path, pattern.at? path = some pattern.preorder[index] ∧
          pattern.numberAt 0 path = index := by
      intro index within
      rcases exists_path.item pattern 0 index (Nat.zero_le _) (by rwa [Nat.zero_add]) with
        ⟨path, node, present, rfl⟩
      refine ⟨path, ?_, rfl⟩
      rw [present, ← List.getElem?_eq_getElem within, ← preorder_at? present 0]
      rfl
    have binds : ∀ {node : Pattern α} {name : String}, node.boundName? = some name →
        node = .bind name := by
      intro node name isBound
      cases node <;> cases isBound
      rfl
    rcases found inside with ⟨path, present, rfl⟩
    rcases found inside' with ⟨path', present', rfl⟩
    rw [binds isBound] at present
    rw [binds isBound', ← same] at present'
    rw [single path path' name present present'] at before
    exact Nat.lt_irrefl _ before

/-! ## Rows -/

/-- The beginning of a row is like a repetition: no repetition may follow. -/
theorem founded_iff {items : List (Pattern α)} :
    Founded items ↔ (repetition 0 none :: items).IsChain fun item next =>
      next.isRepetition → item.isRepetition = false := by
  rw [List.isChain_iff_getElem]
  constructor
  · intro founded place inside isRepetition
    have inside' : place < items.length := Nat.lt_of_succ_lt_succ inside
    rcases founded place _ (List.getElem?_eq_getElem inside') isRepetition with
      ⟨before, unit, rfl, present, plain⟩
    rcases List.getElem?_eq_some_iff.mp present with ⟨_, rfl⟩
    exact plain
  · intro chain place repetition present isRepetition
    rcases List.getElem?_eq_some_iff.mp present with ⟨inside, rfl⟩
    have plain := chain place (Nat.succ_lt_succ inside) isRepetition
    cases place with
    | zero => cases plain
    | succ before =>
        exact ⟨before, _, rfl, List.getElem?_eq_getElem (Nat.lt_of_succ_lt inside), plain⟩

theorem conditionsLast_iff {items : List (Pattern α)} :
    ConditionsLast items ↔ items.IsChain fun item next =>
      item.holdsCondition → next.isCondition := by
  induction items with
  | nil => simp [ConditionsLast]
  | cons item items induction =>
      rw [ConditionsLast, induction, List.isChain_cons]
      apply and_congr_left
      intro _
      exact ⟨fun last next follows holds => last holds next follows,
        fun chain holds next follows => chain next follows holds⟩

theorem conditionsLast_singleton (item : Pattern α) : ConditionsLast [item] :=
  conditionsLast_iff.mpr (.singleton item)

/-- Once an item holds a condition, there are only conditions behind it. -/
theorem ConditionsLast.pairwise {items : List (Pattern α)} (last : ConditionsLast items) :
    items.Pairwise fun item other => item.holdsCondition → other.isCondition := by
  induction items with
  | nil => exact .nil
  | cons item items induction =>
      refine .cons ?_ (induction last.2)
      intro other behind holds
      cases items with
      | nil => cases behind
      | cons next items =>
          have isCondition := last.1 holds next rfl
          rcases List.mem_cons.mp behind with rfl | behind
          · exact isCondition
          · exact List.rel_of_pairwise_cons (induction last.2) behind
              (holdsCondition_of_isCondition isCondition)

/-! ## The whole pattern -/

section

variable [BEq α] {options : Options} {root : Pattern α}

theorem WellFormed.made (formed : root.WellFormed options) : root.Made := by
  have orderly : root.Orderly :=
    orderly_of_malformed? ((malformed?_eq_none_iff options root).mpr formed)
  intro node inside
  rcases exists_at?_of_mem_preorder.item root node inside with ⟨path, present⟩
  refine ⟨orderly node inside, formed.steady path node present, ?_⟩
  cases node with
  | sequence items => exact (formed.sequences _ _ present).2
  | and operands => exact formed.conjunctions _ _ present
  | or operands => exact formed.disjunctions _ _ present
  | not operands => exact formed.negations _ _ present
  | keyed shape entries =>
      rcases formed.keys _ _ _ present with ⟨nonempty, apart⟩
      refine ⟨?_, apart, ?_⟩
      · simpa using nonempty
      · rintro tag rfl
        exact formed.fields _ _ _ present
  | _ => trivial

theorem Made.at? (made : root.Made) {path : List Nat} {node : Pattern α}
    (present : root.at? path = some node) : node.WellMade := made node (mem_preorder_of_at? present)

/-- What is no pattern by itself is among the items of a well-made node. -/
theorem Made.amongItems (made : root.Made) (takes : root.takesValue) {path : List Nat}
    {node : Pattern α} (present : root.at? path = some node) (isItem : node.takesValue = false) :
    root.AmongItems path := by
  rcases List.eq_nil_or_concat' path with rfl | ⟨above, place, rfl⟩
  · cases present
    rw [takes] at isItem
    cases isItem
  · rcases exists_holder present with ⟨holder, atAbove, atPlace⟩
    exact ⟨above, place, holder, rfl, atAbove,
      (made.at? atAbove).holdsItems (List.mem_of_getElem? atPlace) isItem⟩

theorem Made.wellFormed (made : root.Made) (takes : root.takesValue)
    (names : options.repeatedNames = .rejected → root.boundNames.Nodup) :
    root.WellFormed options where
  repetitions path minimum greed present := by
    have among := made.amongItems takes present rfl
    refine ⟨among, ?_⟩
    rcases among with ⟨above, place, holder, rfl, atAbove, -⟩
    rw [at?_concat, atAbove] at present
    rcases (made.at? atAbove).founded place _ present rfl with ⟨before, unit, rfl, there, plain⟩
    refine ⟨above, before, unit, rfl, ?_, plain⟩
    rw [at?_concat, atAbove]
    exact there
  sequences path items present := ⟨made.amongItems takes present rfl, (made.at? present).filled⟩
  conjunctions path operands present := (made.at? present).filled
  disjunctions path operands present := (made.at? present).filled
  negations path operands present := (made.at? present).filled
  alternatives path node below name present alternative bound := by
    rw [at?_append_of_eq present] at bound
    have named : name ∈ node.boundNames :=
      List.mem_filterMap.mpr ⟨_, mem_preorder_of_at? bound, rfl⟩
    rw [(made.at? present).placed.unbound alternative] at named
    cases named
  keys path shape entries present := by
    have admits := (made.at? present).filled
    exact ⟨fun empty => admits.nonempty (by rw [empty]; rfl), admits.apart⟩
  fields path tag entries present := (made.at? present).filled.fields tag rfl
  conditions path accepts present := by
    refine ⟨made.amongItems takes present rfl, ?_, ?_⟩
    · rintro above node ⟨below, rfl⟩ atAbove
      apply Bool.eq_false_iff.mpr
      intro alternative
      rw [at?_append_of_eq atAbove] at present
      have holds := holdsCondition_of_at? present
      rw [(made.at? atAbove).placed.unconditional alternative] at holds
      cases holds
    · rintro above other ⟨below, rfl⟩ ⟨up, place, later, holder, rfl, atUp, ordered, lt, behind⟩
      rcases exists_of_prefix (List.prefix_append _ _) present with ⟨item, atItem⟩
      rw [at?_append_of_eq atItem] at present
      rw [at?_concat, atUp] at atItem
      have pairwise := ((made.at? atUp).placed.conditionsLast ordered).pairwise
      rcases List.getElem?_eq_some_iff.mp atItem with ⟨inside, rfl⟩
      rcases List.getElem?_eq_some_iff.mp behind with ⟨inside', rfl⟩
      exact List.pairwise_iff_getElem.mp pairwise _ _ inside inside' lt
        (holdsCondition_of_at? present)
  names rejected := (nodup_boundNames_iff root).mp (names rejected)

/-- A pattern is well-formed if it stands by itself, all its nodes are well made and its names are
different where they have to be. -/
theorem wellFormed_iff_made : root.WellFormed options ↔
    root.takesValue ∧ root.Made ∧
      (options.repeatedNames = .rejected → root.boundNames.Nodup) := by
  constructor
  · intro formed
    exact ⟨formed.takesValue, formed.made, fun rejected =>
      (nodup_boundNames_iff root).mpr (formed.names rejected)⟩
  · rintro ⟨takes, made, names⟩
    exact made.wellFormed takes names

end

end Pattern

end Destructure
