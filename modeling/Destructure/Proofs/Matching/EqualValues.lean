import Destructure.Proofs.Matching.FirstSolution
import Destructure.Proofs.Value.Equality

/-!
Matching equal values. Equal values need not be the same ones, but as far as nothing of the
application is asked, a pattern matches them in ways that correspond one by one: the same names are
bound, to equal values, and equal values are left. So the first ways that come to an end correspond,
too.

Main statement: `Matcher.equal_values_match_alike`.
-/

namespace Destructure

variable {α : Type}

/-! ## Related lists -/

section Lists

variable {First Second : Type} {related : First → Second → Prop} {firsts : List First}
variable {seconds : List Second} (relates : List.Forall₂ related firsts seconds)
include relates

theorem forall₂_tail : List.Forall₂ related firsts.tail seconds.tail := by
  cases relates with
  | nil => exact .nil
  | cons head tail => exact tail

theorem isEmpty_eq_of_forall₂ : firsts.isEmpty = seconds.isEmpty := by
  cases relates <;> rfl

theorem all_eq_of_forall₂ {holds : First → Bool} {holdsToo : Second → Bool}
    (same : ∀ first second, related first second → holds first = holdsToo second) :
    firsts.all holds = seconds.all holdsToo := by
  induction relates with
  | nil => rfl
  | cons head tail induction => rw [List.all_cons, List.all_cons, same _ _ head, induction]

theorem forall₂_filter {keeps : First → Bool} {keepsToo : Second → Bool}
    (same : ∀ first second, related first second → keeps first = keepsToo second) :
    List.Forall₂ related (firsts.filter keeps) (seconds.filter keepsToo) :=
  List.rel_filter (fun _ _ relates => iff_of_eq (congrArg (· = true) (same _ _ relates))) relates

end Lists

variable [BEq α]

/-! ## Values under names -/

namespace Named

def Alike (pairs pairs' : Named (Value α)) : Prop :=
  List.Forall₂ (fun pair pair' => pair.1 = pair'.1 ∧ pair.2 == pair'.2) pairs pairs'

theorem Alike.filter {pairs pairs' : Named (Value α)} (alike : Alike pairs pairs')
    (keeps : String → Bool) :
    Alike (pairs.filter fun pair => keeps pair.1) (pairs'.filter fun pair => keeps pair.1) :=
  forall₂_filter alike fun _ _ same => congrArg keeps same.1

theorem Alike.firsts {pairs pairs' : Named (Value α)} (alike : Alike pairs pairs') :
    Alike (Named.firsts pairs) (Named.firsts pairs') := by
  induction alike with
  | nil => exact .nil
  | @cons pair pair' pairs pairs' head tail induction =>
      rw [Named.firsts, Named.firsts, head.1]
      exact .cons head (Alike.filter induction (· != pair'.1))

theorem Alike.under {pairs pairs' : Named (Value α)} (alike : Alike pairs pairs') (name : String) :
    List.Forall₂ (fun value value' => value == value') (Named.under name pairs)
      (Named.under name pairs') := by
  refine List.rel_filterMap (fun pair pair' same => ?_) alike
  rw [same.1]
  split
  · exact .some same.2
  · exact .none

theorem Alike.agree_eq [PartialEquivBEq α] {pairs pairs' : Named (Value α)}
    (alike : Alike pairs pairs') : Named.agree pairs = Named.agree pairs' := by
  refine all_eq_of_forall₂ alike.firsts fun pair pair' same => ?_
  rw [← same.1]
  refine all_eq_of_forall₂ (forall₂_tail (alike.under pair.1)) fun value value' equal => ?_
  rw [BEq.congr_left same.2, BEq.congr_right equal]

end Named

/-! ## Decomposers -/

def Decomposer.Respects (decomposer : Decomposer α) : Prop :=
  ∀ value value', value == value' →
    Option.Rel (List.Forall₂ fun part part' => part == part') (decomposer value)
      (decomposer value')

namespace Decomposer

theorem respects_list : Respects (list : Decomposer α) := fun _ _ equal => Value.items?_rel equal

theorem respects_rational : Respects (rational : Decomposer α) := by
  intro value value' equal
  cases Value.equal_of_beq equal with
  | rational fraction =>
      exact .some (.cons (beq_self_eq_true fraction.numerator)
        (.cons (beq_self_eq_true fraction.denominator) .nil))
  | _ => exact .none

theorem respects_complex : Respects (complex : Decomposer α) := by
  intro value value' equal
  cases Value.equal_of_beq equal with
  | complex equal =>
      rcases Bool.and_eq_true_iff.mp equal with ⟨real, imaginary⟩
      exact .some (.cons real (.cons imaginary .nil))
  | _ => exact .none

theorem respects_record (tag : String) : Respects (record tag : Decomposer α) := by
  intro value value' equal
  cases Value.equal_of_beq equal with
  | record tag' related =>
      unfold record
      dsimp only
      split
      · exact .some (List.rel_map (fun _ _ same => same.2) related)
      · exact .none
  | _ => exact .none

/-- Equal values have the same text, and its parts are texts or nil. -/
theorem respects_regex (expression : Regex) : Respects (regex expression : Decomposer α) := by
  intro value value' equal
  unfold regex
  rw [Value.text?_eq_of_beq equal]
  cases value'.text? with
  | none => exact .none
  | some text =>
      rw [Option.bind_eq_bind, Option.bind_some]
      cases expression.parts? text with
      | none => exact .none
      | some parts =>
          refine .some (List.forall₂_same.mpr (List.forall_mem_map.mpr fun part _ => ?_))
          cases part with
          | none => rfl
          | some text => exact beq_self_eq_true text

end Decomposer

namespace Registry

def Respects (registry : Registry α) : Prop :=
  ∀ entry ∈ registry.decomposers, entry.2.Respects

theorem respects_standard : (standard : Registry α).Respects :=
  All.standard Decomposer.respects_list Decomposer.respects_rational Decomposer.respects_complex

theorem Respects.records {registry : Registry α} (respects : registry.Respects)
    (tags : List String) : (tags.foldl registerRecord registry).Respects :=
  All.records respects Decomposer.respects_record tags

theorem Respects.resolve {registry : Registry α} (respects : registry.Respects) {shape : Shape}
    {decomposer : Decomposer α} (resolved : registry.resolve shape = .ok decomposer) :
    decomposer.Respects :=
  All.resolve respects Decomposer.respects_record Decomposer.respects_regex resolved

end Registry

/-! ## Ways -/

namespace Way

structure Alike (way way' : Way α) : Prop where
  bound : Named.Alike way.bound way'.bound
  left : List.Forall₂ (fun value value' => value == value') way.left way'.left

def Respects (onward : Way α → List (Way α)) : Prop :=
  ∀ way way', Alike way way' → List.Forall₂ Alike (onward way) (onward way')

def RespectsItem (item : Value α → Named (Value α) → List (Named (Value α))) : Prop :=
  ∀ value value' bound bound', value == value' → Named.Alike bound bound' →
    List.Forall₂ Named.Alike (item value bound) (item value' bound')

variable {onward next unit : Way α → List (Way α)}

theorem Respects.flatMap (respects : Respects onward) (respectsNext : Respects next) :
    Respects fun way => (onward way).flatMap next :=
  fun _ _ alike => List.rel_flatMap (respects _ _ alike) (fun _ _ alike => respectsNext _ _ alike)

theorem RespectsItem.single {item : Value α → Named (Value α) → List (Named (Value α))}
    (respects : RespectsItem item) : Respects (Way.single item) := by
  rintro ⟨bound, left⟩ ⟨bound', left'⟩ ⟨alike, lefts⟩
  cases lefts with
  | nil => exact .nil
  | cons equal lefts =>
      exact List.rel_map (fun _ _ bound => ⟨bound, lefts⟩) (respects _ _ _ _ equal alike)

theorem forall₂_complete {ways ways' : List (Way α)} (alike : List.Forall₂ Alike ways ways') :
    List.Forall₂ Named.Alike (complete ways) (complete ways') :=
  List.rel_map (fun _ _ alike => alike.bound)
    (forall₂_filter alike fun _ _ alike => isEmpty_eq_of_forall₂ alike.left)

def PassesAlike (passed passed' : List (Named (Value α)) × List (Value α)) : Prop :=
  List.Forall₂ Named.Alike passed.1 passed'.1 ∧
    List.Forall₂ (fun value value' => value == value') passed.2 passed'.2

theorem Respects.passes (respects : Respects unit) (count : Nat) {values values' : List (Value α)}
    (equal : List.Forall₂ (fun value value' => value == value') values values') :
    List.Forall₂ PassesAlike (passes unit count values) (passes unit count values') := by
  induction count generalizing values values' with
  | zero => exact .cons ⟨.nil, equal⟩ .nil
  | succ count induction =>
      have first := respects ⟨[], values⟩ ⟨[], values'⟩ ⟨.nil, equal⟩
      refine List.rel_flatMap first fun way way' alike => ?_
      exact List.rel_map (fun _ _ later => ⟨.cons alike.bound later.1, later.2⟩)
        (induction alike.left)

theorem gather_alike (names : List String) {passes passes' : List (Named (Value α))}
    (alike : List.Forall₂ Named.Alike passes passes') :
    Named.Alike (gather names passes) (gather names passes') := by
  induction names generalizing passes passes' with
  | nil => exact .nil
  | cons name names induction =>
      refine .cons ⟨rfl, Value.itemsEqual_iff.mpr ?_⟩ (induction ?_)
      · refine List.rel_filterMap (fun bound bound' alike => ?_) alike
        cases alike with
        | nil => exact .none
        | cons head tail => exact .some head.2
      · exact List.rel_map (fun _ _ alike => forall₂_tail alike) alike

theorem Respects.repeatedFrom (respects : Respects unit) (names : List String) (greed : Greed)
    (minimum : Nat) : Respects (repeatedFrom names unit greed minimum) := by
  intro way way' alike
  rw [Way.repeatedFrom, Way.repeatedFrom, alike.left.length_eq]
  refine List.rel_flatMap (List.forall₂_same.mpr fun count _ => rfl) fun count _ same => ?_
  subst same
  refine List.rel_map (fun passed passed' later => ?_) (respects.passes count alike.left)
  exact ⟨List.rel_append alike.bound (gather_alike names later.1), later.2⟩

end Way

namespace Pattern

/-! ## Patterns that ask nothing of the application -/

def isForeign : Pattern α → Bool
  | compared _ _ | condition _ => true
  | _ => false

def SelfContained (pattern : Pattern α) : Prop := ∀ node ∈ pattern.preorder, node.isForeign = false

instance (pattern : Pattern α) : Decidable pattern.SelfContained :=
  inferInstanceAs (Decidable (∀ node ∈ pattern.preorder, node.isForeign = false))

omit [BEq α] in
theorem selfContained_iff (pattern : Pattern α) :
    pattern.SelfContained ↔
      pattern.isForeign = false ∧ ∀ part ∈ pattern.parts, part.SelfContained := by
  simp only [SelfContained, preorder_eq pattern, List.forall_mem_cons, List.forall_mem_flatMap]

section

variable {registry : Registry α} {greed : Greed}

theorem respectsItem_allWays {operands : List (Pattern α)}
    (respects : ∀ operand ∈ operands, Way.RespectsItem (operand.itemWays registry greed)) :
    Way.RespectsItem (allWays registry greed operands) := by
  induction operands with
  | nil => exact fun _ _ _ _ _ alike => .cons alike .nil
  | cons operand operands induction =>
      rcases List.forall_mem_cons.mp respects with ⟨here, later⟩
      intro value value' bound bound' equal alike
      rw [allWays, allWays]
      exact List.rel_flatMap (here value value' bound bound' equal alike)
        (fun _ _ alike => induction later value value' _ _ equal alike)

theorem someWay_eq_of_beq {operands : List (Pattern α)}
    (respects : ∀ operand ∈ operands, Way.RespectsItem (operand.itemWays registry greed))
    {value value' : Value α} {bound bound' : Named (Value α)} (equal : value == value')
    (alike : Named.Alike bound bound') :
    someWay registry greed operands value bound =
      someWay registry greed operands value' bound' := by
  induction operands with
  | nil => rfl
  | cons operand operands induction =>
      rcases List.forall_mem_cons.mp respects with ⟨here, later⟩
      rw [someWay, someWay, isEmpty_eq_of_forall₂ (here value value' bound bound' equal alike),
        induction later]

theorem forall₂_entryWays {entries : List (Value α × Pattern α)}
    (respects : ∀ item ∈ entries.map Prod.snd, Way.RespectsItem (item.itemWays registry greed))
    {values values' : List (Value α)} {bound bound' : Named (Value α)}
    (equal : List.Forall₂ (fun value value' => value == value') values values')
    (alike : Named.Alike bound bound') :
    List.Forall₂ Named.Alike (entryWays registry greed entries values bound)
      (entryWays registry greed entries values' bound') := by
  induction entries generalizing values values' bound bound' with
  | nil =>
      cases equal with
      | nil => exact .cons alike .nil
      | cons => exact .nil
  | cons entry entries induction =>
      rcases List.forall_mem_cons.mp respects with ⟨here, later⟩
      cases equal with
      | nil => exact .nil
      | cons equal others =>
          rw [entryWays, entryWays]
          exact List.rel_flatMap (here _ _ bound bound' equal alike)
            (fun _ _ alike => induction later others alike)

variable [PartialEquivBEq α]

theorem respectsItem_of_parts (respects : registry.Respects) {pattern : Pattern α}
    (notForeign : pattern.isForeign = false)
    (ofParts : ∀ part ∈ pattern.parts, Way.RespectsItem (part.itemWays registry greed))
    (ofRow : Way.Respects (rowWays registry greed pattern.parts)) :
    Way.RespectsItem (pattern.itemWays registry greed) := by
  intro value value' bound bound' equal alike
  cases pattern with
  | literal expected =>
      rw [itemWays, itemWays, BEq.congr_right equal]
      split
      · exact .cons alike .nil
      · exact .nil
  | kind expected =>
      rw [itemWays, itemWays, Value.accepts_eq_of_beq equal]
      split
      · exact .cons alike .nil
      · exact .nil
  | bind name => exact .cons (List.rel_append alike (.cons ⟨rfl, equal⟩ .nil)) .nil
  | wildcard => exact .cons alike .nil
  | deconstruct shape items =>
      rw [itemWays, itemWays, Registry.decompose, Registry.decompose]
      cases resolved : registry.resolve shape with
      | error error => exact .nil
      | ok decomposer =>
          have decomposed := respects.resolve resolved value value' equal
          rw [Except.map, Except.map]
          generalize decomposer value = parts, decomposer value' = parts' at decomposed ⊢
          cases decomposed with
          | none => exact .nil
          | some equals => exact Way.forall₂_complete (ofRow _ _ ⟨alike, equals⟩)
  | keyed shape entries =>
      have found := shape.lookup?_rel (entries.map Prod.fst) equal
      rw [itemWays, itemWays]
      generalize shape.lookup? (entries.map Prod.fst) value = parts,
        shape.lookup? (entries.map Prod.fst) value' = parts' at found ⊢
      cases found with
      | none => exact .nil
      | some equals => exact forall₂_entryWays ofParts equals alike
  | and operands => exact respectsItem_allWays ofParts value value' bound bound' equal alike
  | or operands =>
      have matching : someWay registry greed operands value bound =
          someWay registry greed operands value' bound' := someWay_eq_of_beq ofParts equal alike
      rw [itemWays, itemWays, matching]
      split
      · exact .cons alike .nil
      · exact .nil
  | not operands =>
      have matching : someWay registry greed operands value bound =
          someWay registry greed operands value' bound' := someWay_eq_of_beq ofParts equal alike
      rw [itemWays, itemWays, matching]
      split
      · exact .nil
      · exact .cons alike .nil
  | sequence items => exact .nil
  | repetition minimum greed => exact .nil
  | compared expected accepts => cases notForeign
  | condition accepts => cases notForeign

/-- Equal values are matched alike, wherever they are. -/
theorem respects_ways (respects : registry.Respects) (greed : Greed) : Inductive (α := α)
    (fun pattern => pattern.SelfContained →
      Way.RespectsItem (pattern.itemWays registry greed) ∧
      Way.Respects (pattern.unitWays registry greed))
    (fun items => (∀ item ∈ items, item.SelfContained) →
      Way.Respects (rowWays registry greed items)) where
  whole pattern ofParts ofRow selfContained := by
    rcases (selfContained_iff pattern).mp selfContained with ⟨notForeign, ofInner⟩
    have row := ofRow ofInner
    have ofValues := respectsItem_of_parts respects notForeign
      (fun part member => (ofParts part member (ofInner part member)).1) row
    refine ⟨ofValues, ?_⟩
    cases pattern with
    | sequence items => exact row
    | _ => exact ofValues.single
  nil _ _ _ alike := .cons alike .nil
  repeated unit minimum order items ofUnit ofItems selfContained := by
    rcases List.forall_mem_cons.mp selfContained with ⟨here, behind⟩
    rw [rowWays_repeatedFrom]
    exact ((ofUnit here).2.repeatedFrom _ _ _).flatMap
      (ofItems fun item member => behind item (List.mem_cons_of_mem _ member))
  plain item items leads ofItem ofItems selfContained := by
    rcases List.forall_mem_cons.mp selfContained with ⟨here, behind⟩
    have plain : item.isCondition = false := by
      cases item with
      | condition accepts => cases ((selfContained_iff _).mp here).1
      | _ => rfl
    rw [funext (rowWays_unit registry greed plain leads)]
    exact (ofItem here).2.flatMap (ofItems behind)

/-- The solutions of equal values correspond one by one. -/
theorem forall₂_solutions (respects : registry.Respects) {pattern : Pattern α}
    (selfContained : pattern.SelfContained) (options : Options) {value value' : Value α}
    (equal : value == value') :
    List.Forall₂ (fun bindings bindings' => Named.Alike bindings.pairs bindings'.pairs)
      (pattern.solutions registry options value) (pattern.solutions registry options value') := by
  have row := (respects_ways respects options.defaultGreed).row [pattern]
    (List.forall_mem_singleton.mpr selfContained)
  have ways := Way.forall₂_complete (row ⟨[], [value]⟩ ⟨[], [value']⟩ ⟨.nil, .cons equal .nil⟩)
  exact List.rel_map (fun _ _ alike => alike.firsts)
    (forall₂_filter ways fun _ _ alike => alike.agree_eq)

end

end Pattern

namespace Matcher

/-- What a pattern that asks nothing of the application makes of equal values is the same: it
matches none of them, or binds the same names to equal values. -/
theorem equal_values_match_alike [PartialEquivBEq α] {pattern : Pattern α} {tags : List String}
    {options : Options} {matcher : Matcher α}
    (compiled : compile pattern (tags.foldl Registry.registerRecord .standard) options =
      .ok matcher)
    (selfContained : pattern.SelfContained) {value value' : Value α} (equal : value == value') :
    Option.Rel
      (fun bindings bindings' =>
        List.Forall₂ (fun pair pair' => pair.1 = pair'.1 ∧ pair.2 == pair'.2)
          bindings.pairs bindings'.pairs)
      (matcher.matches? value) (matcher.matches? value') := by
  have solutions := Pattern.forall₂_solutions (Registry.respects_standard.records tags)
    selfContained options equal
  have search := (compiled_of_compile compiled).bindingsOf_search none
  rw [matches?, matches?, search, search]
  generalize pattern.solutions (tags.foldl Registry.registerRecord .standard) options value =
    reached, pattern.solutions (tags.foldl Registry.registerRecord .standard) options value' =
    reached' at solutions ⊢
  cases solutions with
  | nil => exact .none
  | cons first others => exact .some first

/-- The two zeros as a key, under it, and where they have to agree. -/
theorem zeros_match_alike :
    ∃ (value : Bool → Value Nat) (matcher : Matcher Nat),
      (value = fun negative => .map [(.float (.zero negative), .float (.zero !negative)),
        (.symbol "more", .record "Pair" [("first", .float (.zero false)),
          ("second", .list [.foreign 1, .float (.zero negative)])])]) ∧
      compile (.keyed .map [(.float (.zero false), .bind "x"),
        (.symbol "more", .deconstruct (.named "Pair") [.bind "x",
          .list [.bind "y", .repetition 1 none]])])
        (["Pair"].foldl Registry.registerRecord .standard) {} = .ok matcher ∧
      matcher.matches? (value false) =
        some ⟨[("x", .float (.zero true)), ("y", .list [.foreign 1, .float (.zero false)])]⟩ ∧
      value false == value true ∧
      Option.Rel
        (fun bindings bindings' =>
          List.Forall₂ (fun pair pair' => pair.1 = pair'.1 ∧ pair.2 == pair'.2)
            bindings.pairs bindings'.pairs)
        (matcher.matches? (value false)) (matcher.matches? (value true)) := by
  obtain ⟨matcher, compiled⟩ : ∃ matcher : Matcher Nat,
      compile (.keyed .map [(.float (.zero false), .bind "x"),
        (.symbol "more", .deconstruct (.named "Pair") [.bind "x",
          .list [.bind "y", .repetition 1 none]])])
        (["Pair"].foldl Registry.registerRecord .standard) {} = .ok matcher := ⟨_, rfl⟩
  refine ⟨_, matcher, rfl, compiled, ?_, rfl, equal_values_match_alike compiled (by decide) rfl⟩
  rw [matches?, (compiled_of_compile compiled).bindingsOf_search]
  rfl

end Matcher

end Destructure
