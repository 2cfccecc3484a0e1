import Mathlib.Data.List.Induction
import Destructure.Proofs.Pattern.Paths

/-!
What a well-formed pattern is, and what is wrong with the nodes of one that is not. Both speak of
paths into the pattern; nothing is said of tables of nodes.
-/

namespace Destructure

variable {α : Type}

namespace Pattern

def AmongItems (root : Pattern α) (path : List Nat) : Prop :=
  ∃ above place holder,
    path = above ++ [place] ∧ root.at? above = some holder ∧ holder.holdsItems

def FollowedBy (root : Pattern α) (path : List Nat) (other : Pattern α) : Prop :=
  ∃ above place holder, path = above ++ [place] ∧ root.at? above = some holder ∧
    holder.isOrdered ∧ holder.parts[place + 1]? = some other

def ComesBefore (root : Pattern α) (path : List Nat) (other : Pattern α) : Prop :=
  ∃ above place later holder, path = above ++ [place] ∧ root.at? above = some holder ∧
    holder.isOrdered ∧ place < later ∧ holder.parts[later]? = some other

def OutsideAlternatives (root : Pattern α) (path : List Nat) : Prop :=
  ∀ above node, above <+: path → root.at? above = some node → node.isAlternative = false

/-- What has to hold of each node of a pattern. -/
structure WellFormed [BEq α] (options : Options) (root : Pattern α) : Prop where
  /-- A repetition has an item to repeat in front of it. -/
  repetitions : ∀ path minimum greed, root.at? path = some (.repetition minimum greed) →
    root.AmongItems path ∧ ∃ above place item, path = above ++ [place + 1] ∧
      root.at? (above ++ [place]) = some item ∧ item.isRepetition = false
  sequences : ∀ path items, root.at? path = some (.sequence items) →
    root.AmongItems path ∧ items ≠ []
  conjunctions : ∀ path operands, root.at? path = some (.and operands) → operands ≠ []
  disjunctions : ∀ path operands, root.at? path = some (.or operands) → operands ≠ []
  negations : ∀ path operands, root.at? path = some (.not operands) → operands.length = 1
  /-- No variable is anywhere below an alternative. -/
  alternatives : ∀ path node below name, root.at? path = some node → node.isAlternative →
    root.at? (path ++ below) ≠ some (.bind name)
  keys : ∀ path shape entries, root.at? path = some (.keyed shape entries) →
    entries ≠ [] ∧ (entries.map Prod.fst).Pairwise fun key key' => (key == key') = false
  /-- The keys of a record name its fields. -/
  fields : ∀ path tag entries, root.at? path = some (.keyed (.record tag) entries) →
    (∀ key ∈ entries.map Prod.fst, key.text?.isSome) ∧
      (entries.map Prod.fst).Pairwise fun key key' => key.text? ≠ key'.text?
  /-- Behind a condition, and behind whatever holds it, there are only conditions. -/
  conditions : ∀ path accepts, root.at? path = some (.condition accepts) →
    root.AmongItems path ∧ root.OutsideAlternatives path ∧
      ∀ above other, above <+: path → root.ComesBefore above other → other.isCondition
  names : options.repeatedNames = .rejected → ∀ path path' name,
    root.at? path = some (.bind name) → root.at? path' = some (.bind name) → path = path'

/-! ## Offences -/

/-- The keys that come before this one are all different, and it is the same as one of them. -/
def FirstRepeated {Key : Type} (same : Key → Key → Bool) (keys : List Key) (key : Key) : Prop :=
  ∃ before after, keys = before ++ key :: after ∧
    (before.Pairwise fun earlier later => same earlier later = false) ∧
    ∃ earlier ∈ before, same earlier key

def sameKey [BEq α] (key key' : Value α) : Bool := key == key'

def sameText (key key' : Value α) : Bool := key.text? == key'.text?

/-- The first variable below the path, and the rest of the way to it. -/
def FirstVariable (root : Pattern α) (path below : List Nat) (name : String) : Prop :=
  root.at? (path ++ below) = some (.bind name) ∧
    ∀ earlier < below, ∀ other, root.at? (path ++ earlier) ≠ some (.bind other)

structure ConditionFits (root : Pattern α) (path : List Nat) : Prop where
  among : root.AmongItems path
  outside : root.OutsideAlternatives path
  last : ∀ above other, above <+: path → root.FollowedBy above other → other.isCondition

/-- The node at the first path is wrong, for this cause, and the second path is to be reported:
that of the node, except that variables are reported where they stand. -/
inductive Offends [BEq α] (options : Options) (root : Pattern α) :
    (path reported : List Nat) → Malformed.Cause α → Prop
  | misplacedQuantifier {path : List Nat} {minimum : Nat} {greed : Option Greed}
      (present : root.at? path = some (.repetition minimum greed))
      (outside : ¬root.AmongItems path) :
      Offends options root path path .misplacedQuantifier
  | danglingQuantifier {above : List Nat} {minimum : Nat} {greed : Option Greed}
      (present : root.at? (above ++ [0]) = some (.repetition minimum greed))
      (among : root.AmongItems (above ++ [0])) :
      Offends options root (above ++ [0]) (above ++ [0]) .danglingQuantifier
  | stackedQuantifier {above : List Nat} {place minimum minimum' : Nat}
      {greed greed' : Option Greed}
      (present : root.at? (above ++ [place + 1]) = some (.repetition minimum greed))
      (among : root.AmongItems (above ++ [place + 1]))
      (before : root.at? (above ++ [place]) = some (.repetition minimum' greed')) :
      Offends options root (above ++ [place + 1]) (above ++ [place + 1]) .stackedQuantifier
  | misplacedSequence {path : List Nat} {items : List (Pattern α)}
      (present : root.at? path = some (.sequence items)) (outside : ¬root.AmongItems path) :
      Offends options root path path .misplacedSequence
  | emptySequence {path : List Nat} (present : root.at? path = some (.sequence []))
      (among : root.AmongItems path) : Offends options root path path .emptySequence
  | emptyConjunction {path : List Nat} (present : root.at? path = some (.and [])) :
      Offends options root path path (.emptyComposite "And")
  | emptyDisjunction {path : List Nat} (present : root.at? path = some (.or [])) :
      Offends options root path path (.emptyComposite "Or")
  | emptyNegation {path : List Nat} (present : root.at? path = some (.not [])) :
      Offends options root path path (.emptyComposite "Not")
  | notArity {path : List Nat} {operands : List (Pattern α)}
      (present : root.at? path = some (.not operands)) (several : 1 < operands.length) :
      Offends options root path path (.notArity operands.length)
  | boundInDisjunction {path below : List Nat} {operands : List (Pattern α)} {name : String}
      (present : root.at? path = some (.or operands))
      (isBound : root.FirstVariable path below name) :
      Offends options root path (path ++ below) (.bindingInAlternative name "Or")
  | boundInNegation {path below : List Nat} {operand : Pattern α} {name : String}
      (present : root.at? path = some (.not [operand]))
      (isBound : root.FirstVariable path below name) :
      Offends options root path (path ++ below) (.bindingInAlternative name "Not")
  | keyedArity {path : List Nat} {shape : KeyedShape}
      (present : root.at? path = some (.keyed shape [])) :
      Offends options root path path .keyedArity
  | badFieldKey {path : List Nat} {tag : String} {entries : List (Value α × Pattern α)}
      {before after : List (Value α)} {key : Value α}
      (present : root.at? path = some (.keyed (.record tag) entries))
      (keys : entries.map Prod.fst = before ++ key :: after) (noText : key.text? = none)
      (texts : ∀ earlier ∈ before, earlier.text?.isSome) :
      Offends options root path path (.badFieldKey key)
  | duplicateField {path : List Nat} {tag : String} {entries : List (Value α × Pattern α)}
      {key : Value α} (present : root.at? path = some (.keyed (.record tag) entries))
      (texts : ∀ key ∈ entries.map Prod.fst, key.text?.isSome)
      (twice : FirstRepeated sameText (entries.map Prod.fst) key) :
      Offends options root path path (.duplicateKey key)
  | duplicateKey {path : List Nat} {entries : List (Value α × Pattern α)} {key : Value α}
      (present : root.at? path = some (.keyed .map entries))
      (twice : FirstRepeated sameKey (entries.map Prod.fst) key) :
      Offends options root path path (.duplicateKey key)
  | misplacedCondition {path : List Nat} {accepts : Bindings α → Bool}
      (present : root.at? path = some (.condition accepts)) (unfit : ¬root.ConditionFits path) :
      Offends options root path path .misplacedCondition
  | duplicateVariable {path earlier : List Nat} {name : String}
      (rejected : options.repeatedNames = .rejected)
      (present : root.at? path = some (.bind name)) (before : earlier < path)
      (present' : root.at? earlier = some (.bind name)) :
      Offends options root path path (.duplicateVariable name)

/-! ## Repeated keys -/

section Keys

variable {Key : Type} {same : Key → Key → Bool}

theorem FirstRepeated.not_pairwise {keys : List Key} {key : Key}
    (twice : FirstRepeated same keys key) :
    ¬keys.Pairwise fun earlier later => same earlier later = false := by
  rcases twice with ⟨before, after, rfl, -, earlier, member, equal⟩
  intro apart
  have differs := (List.pairwise_append.mp apart).2.2 earlier member key List.mem_cons_self
  rw [equal] at differs
  cases differs

theorem FirstRepeated.ne_nil {keys : List Key} {key : Key}
    (twice : FirstRepeated same keys key) : keys ≠ [] := by
  rcases twice with ⟨before, after, rfl, -⟩
  exact List.append_ne_nil_of_right_ne_nil _ (List.cons_ne_nil _ _)

/-- Keys that are not all different have a first one that repeats another. -/
theorem exists_firstRepeated {keys : List Key}
    (repeats : ¬keys.Pairwise fun earlier later => same earlier later = false) :
    ∃ key, FirstRepeated same keys key := by
  induction keys using List.reverseRecOn with
  | nil => exact absurd .nil repeats
  | append_singleton keys last induction =>
      by_cases apart : keys.Pairwise fun earlier later => same earlier later = false
      · refine ⟨last, keys, [], rfl, apart, ?_⟩
        apply Classical.byContradiction
        intro single
        apply repeats
        rw [List.pairwise_append]
        refine ⟨apart, List.pairwise_singleton _ _, ?_⟩
        intro earlier member later isLast
        rw [List.mem_singleton.mp isLast]
        exact Bool.eq_false_iff.mpr fun equal => single ⟨earlier, member, equal⟩
      · rcases induction apart with ⟨key, before, after, rfl, apart', twice⟩
        refine ⟨key, before, after ++ [last], ?_, apart', twice⟩
        rw [List.append_assoc, List.cons_append]

end Keys

theorem sameKey_eq_false_of_sameText [BEq α] {key key' : Value α} (text : key.text?.isSome)
    (differs : sameText key key' = false) : sameKey key key' = false := by
  cases key with
  | string first =>
      cases key' with
      | string second => exact differs
      | _ => rfl
  | symbol first =>
      cases key' with
      | symbol second => exact differs
      | _ => rfl
  | _ => cases text

/-! ## Well-formed patterns offend nowhere -/

theorem AmongItems.holder {root : Pattern α} {above : List Nat} {place : Nat}
    (among : root.AmongItems (above ++ [place])) :
    ∃ holder, root.at? above = some holder ∧ holder.holdsItems := by
  rcases among with ⟨above', place', holder, equal, present, holds⟩
  rcases List.append_inj' equal rfl with ⟨rfl, -⟩
  exact ⟨holder, present, holds⟩

theorem isOrdered_of_holdsItems {holder : Pattern α} (holds : holder.holdsItems) :
    holder.isOrdered := by
  cases holder with
  | deconstruct shape items => rfl
  | sequence items => rfl
  | _ => cases holds

theorem exists_before {root node : Pattern α} {above : List Nat} {place : Nat}
    (present : root.at? (above ++ [place + 1]) = some node) :
    ∃ item, root.at? (above ++ [place]) = some item := by
  rcases exists_holder present with ⟨holder, atAbove, atPlace⟩
  rcases List.getElem?_eq_some_iff.mp atPlace with ⟨inside, -⟩
  rw [at?_concat, atAbove, Option.bind_some,
    List.getElem?_eq_getElem (Nat.lt_of_succ_lt inside)]
  exact ⟨_, rfl⟩

theorem FirstVariable.operands_ne_nil {root : Pattern α} {path below : List Nat}
    {operands : List (Pattern α)} {name : String} (isBound : root.FirstVariable path below name)
    (present : root.at? path = some (.or operands)) : operands ≠ [] := by
  rintro rfl
  have leads := isBound.1
  rw [at?_append_of_eq present] at leads
  cases below <;> cases leads

section Offences

variable [BEq α] {options : Options} {root : Pattern α}

theorem WellFormed.conditionFits (wellFormed : root.WellFormed options) {path : List Nat}
    {accepts : Bindings α → Bool} (present : root.at? path = some (.condition accepts)) :
    root.ConditionFits path := by
  rcases wellFormed.conditions path accepts present with ⟨among, outside, last⟩
  refine ⟨among, outside, ?_⟩
  rintro above other leads ⟨holderPath, place, holder, equal, atHolder, ordered, behind⟩
  exact last above other leads
    ⟨holderPath, place, place + 1, holder, equal, atHolder, ordered, Nat.lt_succ_self _, behind⟩

theorem WellFormed.not_offends (wellFormed : root.WellFormed options) {path reported : List Nat}
    {cause : Malformed.Cause α} : ¬root.Offends options path reported cause := by
  intro offends
  cases offends with
  | misplacedQuantifier present outside =>
      exact outside (wellFormed.repetitions _ _ _ present).1
  | danglingQuantifier present among =>
      rcases (wellFormed.repetitions _ _ _ present).2 with ⟨above, place, item, equal, -⟩
      cases (List.append_inj' equal rfl).2
  | stackedQuantifier present among before =>
      rcases (wellFormed.repetitions _ _ _ present).2 with ⟨above, place, item, equal, atItem, unit⟩
      rcases List.append_inj' equal rfl with ⟨rfl, places⟩
      cases places
      rw [atItem] at before
      cases before
      cases unit
  | misplacedSequence present outside => exact outside (wellFormed.sequences _ _ present).1
  | emptySequence present among => exact (wellFormed.sequences _ _ present).2 rfl
  | emptyConjunction present => exact wellFormed.conjunctions _ _ present rfl
  | emptyDisjunction present => exact wellFormed.disjunctions _ _ present rfl
  | emptyNegation present => cases wellFormed.negations _ _ present
  | notArity present several =>
      rw [wellFormed.negations _ _ present] at several
      exact Nat.lt_irrefl _ several
  | boundInDisjunction present isBound =>
      exact wellFormed.alternatives _ _ _ _ present rfl isBound.1
  | boundInNegation present isBound =>
      exact wellFormed.alternatives _ _ _ _ present rfl isBound.1
  | keyedArity present => exact (wellFormed.keys _ _ _ present).1 rfl
  | badFieldKey present keys noText texts =>
      have text := (wellFormed.fields _ _ _ present).1 _
        (keys ▸ List.mem_append_right _ List.mem_cons_self)
      rw [noText] at text
      cases text
  | duplicateField present texts twice =>
      apply twice.not_pairwise
      apply (wellFormed.fields _ _ _ present).2.imp
      intro key key' differ
      exact beq_eq_false_iff_ne.mpr differ
  | duplicateKey present twice => exact twice.not_pairwise (wellFormed.keys _ _ _ present).2
  | misplacedCondition present unfit => exact unfit (wellFormed.conditionFits present)
  | duplicateVariable rejected present before present' =>
      have equal := wellFormed.names rejected _ _ _ present present'
      rw [equal] at before
      exact List.lt_irrefl _ before

/-! ## Patterns without offences are well-formed -/

section Sound

variable (sound : ∀ path reported cause, ¬root.Offends options path reported cause)
include sound

theorem repetition_fits {path : List Nat} {minimum : Nat} {greed : Option Greed}
    (present : root.at? path = some (.repetition minimum greed)) :
    root.AmongItems path ∧ ∃ above place item, path = above ++ [place + 1] ∧
      root.at? (above ++ [place]) = some item ∧ item.isRepetition = false := by
  have among : root.AmongItems path := by
    apply Classical.byContradiction
    intro outside
    exact sound _ _ _ (.misplacedQuantifier present outside)
  refine ⟨among, ?_⟩
  rcases among with ⟨above, place, holder, rfl, atAbove, holds⟩
  have among : root.AmongItems (above ++ [place]) := ⟨above, place, holder, rfl, atAbove, holds⟩
  cases place with
  | zero => exact absurd (.danglingQuantifier present among) (sound _ _ _)
  | succ place =>
      rcases exists_before present with ⟨item, atItem⟩
      refine ⟨above, place, item, rfl, atItem, ?_⟩
      cases item with
      | repetition minimum' greed' =>
          exact absurd (.stackedQuantifier present among atItem) (sound _ _ _)
      | _ => rfl

theorem not_bind_below {path below : List Nat} {node : Pattern α} {name : String}
    (present : root.at? path = some node) (alternative : node.isAlternative) :
    root.at? (path ++ below) ≠ some (.bind name) := by
  intro bound
  rw [at?_append_of_eq present] at bound
  rcases exists_first_path (fun below => ∃ name, node.at? below = some (.bind name)) bound
    ⟨name, bound⟩ with ⟨first, found, -, ⟨name', bound'⟩, none⟩
  have isBound : root.FirstVariable path first name' := by
    constructor
    · rw [at?_append_of_eq present, bound']
    · intro earlier before other atEarlier
      rw [at?_append_of_eq present] at atEarlier
      exact none earlier before _ atEarlier ⟨other, atEarlier⟩
  cases node with
  | or operands => exact sound _ _ _ (.boundInDisjunction present isBound)
  | not operands =>
      rcases operands with _ | ⟨operand, _ | ⟨other, others⟩⟩
      · exact sound _ _ _ (.emptyNegation present)
      · exact sound _ _ _ (.boundInNegation present isBound)
      · exact sound _ _ _ (.notArity present (Nat.succ_lt_succ (Nat.succ_pos _)))
  | _ => cases alternative

theorem keys_fit {path : List Nat} {shape : KeyedShape} {entries : List (Value α × Pattern α)}
    (present : root.at? path = some (.keyed shape entries)) : entries ≠ [] := by
  rintro rfl
  exact sound _ _ _ (.keyedArity present)

theorem fields_fit {path : List Nat} {tag : String} {entries : List (Value α × Pattern α)}
    (present : root.at? path = some (.keyed (.record tag) entries)) :
    (∀ key ∈ entries.map Prod.fst, key.text?.isSome) ∧
      (entries.map Prod.fst).Pairwise fun key key' => sameText key key' = false := by
  have texts : ∀ key ∈ entries.map Prod.fst, key.text?.isSome := by
    cases found : (entries.map Prod.fst).find? fun key => key.text?.isNone with
    | none => simpa [List.find?_eq_none, Option.isSome_iff_ne_none] using found
    | some key =>
        rcases List.find?_eq_some_iff_append.mp found with ⟨noText, before, after, keys, texts⟩
        refine absurd (.badFieldKey present keys (Option.isNone_iff_eq_none.mp noText) ?_)
          (sound _ _ _)
        intro earlier member
        simpa [Option.isSome_iff_ne_none] using texts earlier member
  refine ⟨texts, ?_⟩
  apply Classical.byContradiction
  intro repeats
  rcases exists_firstRepeated repeats with ⟨key, twice⟩
  exact sound _ _ _ (.duplicateField present texts twice)

theorem keys_differ {path : List Nat} {shape : KeyedShape} {entries : List (Value α × Pattern α)}
    (present : root.at? path = some (.keyed shape entries)) :
    (entries.map Prod.fst).Pairwise fun key key' => sameKey key key' = false := by
  cases shape with
  | map =>
      apply Classical.byContradiction
      intro repeats
      rcases exists_firstRepeated repeats with ⟨key, twice⟩
      exact sound _ _ _ (.duplicateKey present twice)
  | record tag =>
      rcases fields_fit sound present with ⟨texts, differ⟩
      apply differ.imp_of_mem
      intro key key' member _ apart
      exact sameKey_eq_false_of_sameText (texts key member) apart

theorem condition_fits {path : List Nat} {accepts : Bindings α → Bool}
    (present : root.at? path = some (.condition accepts)) : root.ConditionFits path := by
  apply Classical.byContradiction
  intro unfit
  exact sound _ _ _ (.misplacedCondition present unfit)

/-- Behind a condition that is followed by conditions only there are conditions only, since each
of them is followed by conditions only. -/
theorem isCondition_of_later {above : List Nat} {holder : Pattern α} {place : Nat}
    (atHolder : root.at? above = some holder) (ordered : holder.isOrdered)
    (next : ∀ other, holder.parts[place + 1]? = some other → other.isCondition)
    {distance : Nat} {other : Pattern α}
    (behind : holder.parts[place + 1 + distance]? = some other) : other.isCondition := by
  induction distance generalizing other with
  | zero => exact next other behind
  | succ distance induction =>
      rcases List.getElem?_eq_some_iff.mp behind with ⟨inside, -⟩
      obtain ⟨item, before⟩ : ∃ item, holder.parts[place + 1 + distance]? = some item :=
        ⟨_, List.getElem?_eq_getElem (Nat.lt_of_succ_lt inside)⟩
      have isCondition := induction before
      cases item with
      | condition accepts =>
          have atItem : root.at? (above ++ [place + 1 + distance]) = some (.condition accepts) := by
            rw [at?_concat, atHolder, Option.bind_some, before]
          exact (condition_fits sound atItem).last _ other (List.prefix_refl _)
            ⟨above, _, holder, rfl, atHolder, ordered, behind⟩
      | _ => cases isCondition

theorem conditions_last {path : List Nat} {accepts : Bindings α → Bool}
    (present : root.at? path = some (.condition accepts)) {above : List Nat} {other : Pattern α}
    (leads : above <+: path) (before : root.ComesBefore above other) : other.isCondition := by
  rcases before with ⟨holderPath, place, later, holder, rfl, atHolder, ordered, lt, behind⟩
  obtain ⟨distance, rfl⟩ : ∃ distance, later = place + 1 + distance :=
    ⟨later - (place + 1), by omega⟩
  apply isCondition_of_later sound atHolder ordered _ behind
  intro next follows
  exact (condition_fits sound present).last _ next leads
    ⟨holderPath, place, holder, rfl, atHolder, ordered, follows⟩

theorem wellFormed_of_sound : root.WellFormed options where
  repetitions _ _ _ present := repetition_fits sound present
  sequences path items present := by
    have among : root.AmongItems path := by
      apply Classical.byContradiction
      intro outside
      exact sound _ _ _ (.misplacedSequence present outside)
    refine ⟨among, ?_⟩
    rintro rfl
    exact sound _ _ _ (.emptySequence present among)
  conjunctions path operands present := by
    rintro rfl
    exact sound _ _ _ (.emptyConjunction present)
  disjunctions path operands present := by
    rintro rfl
    exact sound _ _ _ (.emptyDisjunction present)
  negations path operands present := by
    rcases operands with _ | ⟨operand, _ | ⟨other, others⟩⟩
    · exact absurd (.emptyNegation present) (sound _ _ _)
    · rfl
    · exact absurd (.notArity present (Nat.succ_lt_succ (Nat.succ_pos _))) (sound _ _ _)
  alternatives _ _ _ _ present alternative := not_bind_below sound present alternative
  keys _ _ _ present := ⟨keys_fit sound present, keys_differ sound present⟩
  fields _ _ _ present := by
    rcases fields_fit sound present with ⟨texts, differ⟩
    refine ⟨texts, differ.imp ?_⟩
    intro key key' apart
    exact beq_eq_false_iff_ne.mp apart
  conditions _ _ present :=
    ⟨(condition_fits sound present).among, (condition_fits sound present).outside,
      fun _ _ leads before => conditions_last sound present leads before⟩
  names rejected path path' name present present' := by
    apply List.le_antisymm
    · apply List.not_lt.mp
      intro before
      exact sound _ _ _ (.duplicateVariable rejected present before present')
    · apply List.not_lt.mp
      intro before
      exact sound _ _ _ (.duplicateVariable rejected present' before present)

end Sound

/-- A pattern is well-formed if and only if none of its nodes offends. -/
theorem wellFormed_iff_not_offends :
    root.WellFormed options ↔
      ∀ path reported cause, ¬root.Offends options path reported cause := by
  constructor
  · intro wellFormed _ _ _
    exact wellFormed.not_offends
  · exact wellFormed_of_sound

end Offences

end Pattern

end Destructure
