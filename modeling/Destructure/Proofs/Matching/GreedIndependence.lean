import Destructure.Proofs.Matching.FirstSolution
import Destructure.Proofs.Pattern.Greed

/-!
Whether there is a match does not depend on greed. The order in which a repetition tries its counts
changes the order of the ways of a pattern, but not which ways there are; so with one order there
is a way to be content with if and only if there is one with the other.
-/

namespace Destructure

variable {α : Type}

def Listed {β : Type} (first second : List β) : Prop := ∀ item, item ∈ first ↔ item ∈ second

namespace Listed

variable {β γ ι : Type} {first second : List β}

theorem refl (items : List β) : Listed items items := fun _ => Iff.rfl

theorem symm (listed : Listed first second) : Listed second first :=
  fun item => (listed item).symm

theorem trans {third : List β} (listed : Listed first second) (listed' : Listed second third) :
    Listed first third := fun item => (listed item).trans (listed' item)

theorem flatMap {next next' : β → List γ} (listed : Listed first second)
    (listedNext : ∀ item, Listed (next item) (next' item)) :
    Listed (first.flatMap next) (second.flatMap next') := by
  intro item
  simp only [List.mem_flatMap, listed _, listedNext _ item]

theorem map (change : β → γ) (listed : Listed first second) :
    Listed (first.map change) (second.map change) := by
  intro item
  simp only [List.mem_map, listed _]

theorem filter (keeps : β → Bool) (listed : Listed first second) :
    Listed (first.filter keeps) (second.filter keeps) := by
  intro item
  simp only [List.mem_filter, listed item]

theorem ite (listed : Listed first second) (condition : Bool) :
    Listed (if condition then first else []) (if condition then second else []) := by
  cases condition
  · exact refl []
  · exact listed

theorem isEmpty_eq (listed : Listed first second) : first.isEmpty = second.isEmpty := by
  rw [Bool.eq_iff_iff, List.isEmpty_iff, List.isEmpty_iff, List.eq_nil_iff_forall_not_mem,
    List.eq_nil_iff_forall_not_mem]
  exact forall_congr' fun item => not_congr (listed item)

theorem isSome_find?_eq (listed : Listed first second) (accepts : β → Bool) :
    (first.find? accepts).isSome = (second.find? accepts).isSome := by
  rw [Bool.eq_iff_iff, List.find?_isSome, List.find?_isSome]
  exact exists_congr fun item => and_congr_left fun _ => listed item

end Listed

theorem Greed.listed_counts (greed greed' : Greed) (minimum available : Nat) :
    Listed (greed.counts minimum available) (greed'.counts minimum available) := by
  intro count
  rw [Greed.mem_counts, Greed.mem_counts]

namespace Way

theorem listed_single {item item' : Value α → Named (Value α) → List (Named (Value α))}
    (listed : ∀ value bound, Listed (item value bound) (item' value bound)) (way : Way α) :
    Listed (single item way) (single item' way) := by
  rcases way with ⟨bound, _ | ⟨value, left⟩⟩
  · exact .refl []
  · exact (listed value bound).map _

theorem listed_complete {ways ways' : List (Way α)} (listed : Listed ways ways') :
    Listed (complete ways) (complete ways') := (listed.filter _).map _

theorem listed_repeated (names : List String) {unit unit' : Way α → List (Way α)}
    (listed : ∀ way, Listed (unit way) (unit' way)) (way : Way α) (count : Nat) :
    Listed (repeated names unit way count) (repeated names unit' way count) := by
  have ofPasses : ∀ values, Listed (passes unit count values) (passes unit' count values) := by
    induction count with
    | zero => exact fun _ => .refl _
    | succ count induction =>
        exact fun values => (listed _).flatMap fun way => (induction way.left).map _
  exact (ofPasses way.left).map _

end Way

namespace Pattern

variable [BEq α] (registry : Registry α) (greed greed' : Greed)

def OpenAlike (pattern : Pattern α) : Prop :=
  ∀ value bound, Listed (pattern.itemWays registry greed value bound)
    (pattern.withoutGreed.itemWays registry greed' value bound)

theorem listed_allWays {operands : List (Pattern α)}
    (alike : ∀ operand ∈ operands, OpenAlike registry greed greed' operand) (value : Value α)
    (bound : Named (Value α)) :
    Listed (allWays registry greed operands value bound)
      (allWays registry greed' (operands.map withoutGreed) value bound) := by
  induction operands generalizing bound with
  | nil => exact .refl [bound]
  | cons operand operands induction =>
      exact (alike operand List.mem_cons_self value bound).flatMap fun later =>
        induction (fun other member => alike other (List.mem_cons_of_mem _ member)) later

theorem someWay_withoutGreed {operands : List (Pattern α)}
    (alike : ∀ operand ∈ operands, OpenAlike registry greed greed' operand) (value : Value α)
    (bound : Named (Value α)) :
    someWay registry greed operands value bound =
      someWay registry greed' (operands.map withoutGreed) value bound := by
  induction operands with
  | nil => rfl
  | cons operand operands induction =>
      have others := induction fun other member => alike other (List.mem_cons_of_mem _ member)
      have first := (alike operand List.mem_cons_self value bound).isEmpty_eq
      rw [List.map_cons, someWay, someWay, first, others]

theorem listed_entryWays {entries : List (Value α × Pattern α)}
    (alike : ∀ item ∈ entries.map Prod.snd, OpenAlike registry greed greed' item)
    (values : List (Value α)) (bound : Named (Value α)) :
    Listed (entryWays registry greed entries values bound)
      (entryWays registry greed' (entries.map fun entry => (entry.1, entry.2.withoutGreed))
        values bound) := by
  induction entries generalizing values bound with
  | nil => cases values <;> exact .refl _
  | cons entry entries induction =>
      cases values with
      | nil => exact .refl []
      | cons value values =>
          exact (alike entry.2 List.mem_cons_self value bound).flatMap fun later =>
            induction (fun other member => alike other (List.mem_cons_of_mem _ member)) values
              later

def RowOpenAlike (items : List (Pattern α)) : Prop :=
  ∀ way, Listed (rowWays registry greed items way)
    (rowWays registry greed' (items.map withoutGreed) way)

theorem openAlike_of_parts {pattern : Pattern α}
    (ofParts : ∀ part ∈ pattern.parts, OpenAlike registry greed greed' part)
    (ofRow : RowOpenAlike registry greed greed' pattern.parts) :
    OpenAlike registry greed greed' pattern := by
  intro value bound
  cases pattern with
  | deconstruct shape items =>
      rw [withoutGreed, allWithoutGreed_eq, itemWays, itemWays]
      split
      · exact Way.listed_complete (ofRow _)
      · exact .refl []
  | keyed shape entries =>
      have keys : (entries.map fun entry => (entry.1, entry.2.withoutGreed)).map Prod.fst =
          entries.map Prod.fst := by simp
      rw [withoutGreed, entriesWithoutGreed_eq, itemWays, itemWays, keys]
      split
      · exact listed_entryWays registry greed greed' ofParts _ bound
      · exact .refl []
  | and operands =>
      rw [withoutGreed, allWithoutGreed_eq, itemWays, itemWays]
      exact listed_allWays registry greed greed' ofParts value bound
  | or operands =>
      have matching : someWay registry greed operands value bound = _ :=
        someWay_withoutGreed registry greed greed' ofParts value bound
      rw [withoutGreed, allWithoutGreed_eq, itemWays, itemWays, matching]
      exact .refl _
  | not operands =>
      have matching : someWay registry greed operands value bound = _ :=
        someWay_withoutGreed registry greed greed' ofParts value bound
      rw [withoutGreed, allWithoutGreed_eq, itemWays, itemWays, matching]
      exact .refl _
  | _ => exact .refl _

/-- Leaving the orders open changes the order of the ways only. -/
theorem listed_ways : Inductive (α := α)
    (fun pattern =>
      OpenAlike registry greed greed' pattern ∧
      ∀ way, Listed (pattern.sequenceWays registry greed way)
        (pattern.withoutGreed.sequenceWays registry greed' way))
    (RowOpenAlike registry greed greed') where
  whole pattern ofParts ofRow := by
    refine ⟨openAlike_of_parts registry greed greed' (fun part member => (ofParts part member).1)
      ofRow, fun way => ?_⟩
    cases pattern with
    | sequence items =>
        rw [withoutGreed, allWithoutGreed_eq]
        exact ofRow way
    | _ => exact .refl []
  nil way := .refl [way]
  repeated unit minimum order items ofUnit ofItems way := by
    rw [List.map_cons, List.map_cons, withoutGreed, rowWays, rowWays, boundNames_withoutGreed,
      isSequence_withoutGreed]
    apply (Greed.listed_counts _ _ _ _).flatMap
    intro count
    apply Listed.flatMap _ ofItems
    apply Way.listed_repeated
    split
    · exact ofUnit.2
    · exact Way.listed_single ofUnit.1
  plain item items leads ofItem ofItems way := by
    have leads' := leads
    rw [← repetitionLeads_withoutGreed] at leads'
    have onward := (Way.listed_single ofItem.1 way).flatMap ofItems
    rw [List.map_cons, rowWays_plain registry greed leads, rowWays_plain registry greed' leads']
    cases item with
    | condition accepts => exact (ofItems way).ite _
    | repetition minimum order => exact .refl []
    | sequence parts => exact (ofItem.2 way).flatMap ofItems
    | _ => exact onward

/-- The solutions are those of the pattern with its orders left open, under any default. -/
theorem listed_solutions (pattern : Pattern α) (registry : Registry α) (options options' : Options)
    (value : Value α) :
    Listed (pattern.solutions registry options value)
      (pattern.withoutGreed.solutions registry options' value) := by
  have ways := (listed_ways registry options.defaultGreed options'.defaultGreed).row [pattern]
  exact ((Way.listed_complete (ways _)).filter _).map _

theorem listed_solutions_of_withoutGreed {first second : Pattern α}
    (same : first.withoutGreed = second.withoutGreed) (registry : Registry α)
    (options options' : Options) (value : Value α) :
    Listed (first.solutions registry options value)
      (second.solutions registry options' value) := by
  have onward := listed_solutions first registry options options value
  rw [same] at onward
  exact onward.trans (listed_solutions second registry options' options value).symm

end Pattern

namespace Matcher

/-- Decomposers are looked for without regard to the order of repetitions. -/
theorem resolveAll_withoutGreed (registry : Registry α) (kinds : List (NodeKind α)) :
    resolveAll registry (kinds.map NodeKind.withoutGreed) = resolveAll registry kinds := by
  induction kinds with
  | nil => rfl
  | cons kind kinds induction =>
      cases kind <;> simp only [List.map_cons, NodeKind.withoutGreed, resolveAll, induction]

theorem kinds_ofPattern (greed greed' : Greed) (pattern : Pattern α) :
    ((Outline.ofPattern greed' pattern.withoutGreed).preorder.map Outline.kind).map
        NodeKind.withoutGreed =
      ((Outline.ofPattern greed pattern).preorder.map Outline.kind).map NodeKind.withoutGreed := by
  rw [Outline.ofPattern, Outline.ofPattern, (Outline.kinds_numbers _).item,
    (Outline.kinds_numbers _).item, Pattern.preorder_withoutGreed.item, List.map_map, List.map_map,
    List.map_map]
  congr 1
  funext node
  exact Pattern.withoutGreed_nodeKind greed greed' node

/-- What becomes of compilation, and with which error, greed has no part in. -/
theorem compile_of_withoutGreed [BEq α] {first second : Pattern α}
    (same : first.withoutGreed = second.withoutGreed) {options options' : Options}
    (policy : options.repeatedNames = options'.repeatedNames) (registry : Registry α) :
    (compile first registry options).map (fun _ => ()) =
      (compile second registry options').map fun _ => () := by
  have kinds : ((Outline.ofPattern options.defaultGreed first).preorder.map Outline.kind).map
        NodeKind.withoutGreed =
      ((Outline.ofPattern options'.defaultGreed second).preorder.map Outline.kind).map
        NodeKind.withoutGreed := by
    rw [← kinds_ofPattern _ .greedy, same, kinds_ofPattern]
  have resolved : resolveAll registry
        ((Outline.ofPattern options.defaultGreed first).preorder.map Outline.kind) =
      resolveAll registry
        ((Outline.ofPattern options'.defaultGreed second).preorder.map Outline.kind) := by
    rw [← resolveAll_withoutGreed, kinds, resolveAll_withoutGreed]
  simp only [compile, Pattern.malformed?_eq_of_withoutGreed same policy, resolved]
  split
  · rfl
  · split <;> rfl

/-- Greed never decides whether there is a match. -/
theorem greed_never_decides_match [BEq α] {first second : Pattern α}
    (same : first.withoutGreed = second.withoutGreed) {options options' : Options}
    (policy : options.repeatedNames = options'.repeatedNames) (registry : Registry α) :
    ((∃ matcher, compile first registry options = .ok matcher) ↔
        ∃ matcher, compile second registry options' = .ok matcher) ∧
      ∀ matcher matcher', compile first registry options = .ok matcher →
        compile second registry options' = .ok matcher' → ∀ value,
          (matcher.matches? value).isSome = (matcher'.matches? value).isSome ∧
          ∀ guard, (matcher.matchGuarded? guard value).isSome =
            (matcher'.matchGuarded? guard value).isSome := by
  constructor
  · have compiles := compile_of_withoutGreed same policy registry
    cases compiled : compile first registry options <;>
      cases compiled' : compile second registry options' <;>
      simp [compiled, compiled', Except.map] at compiles ⊢
  · intro matcher matcher' compiled compiled' value
    have found : ∀ guard, (bindingsOf (matcher.search guard value)).isSome =
        (bindingsOf (matcher'.search guard value)).isSome := by
      intro guard
      rw [(compiled_of_compile compiled).bindingsOf_search,
        (compiled_of_compile compiled').bindingsOf_search]
      exact (Pattern.listed_solutions_of_withoutGreed same registry options options'
        value).isSome_find?_eq _
    exact ⟨found none, fun guard => found (some guard)⟩

theorem lazy_search_matches_too : ∃ matcher matcher' : Matcher Nat,
    compile (.list [.bind "x", .repetition 0 none, .bind "y", .repetition 1 (some .greedy)])
        .standard {} = .ok matcher ∧
      compile (.list [.bind "x", .repetition 0 (some .greedy), .bind "y", .repetition 1 none])
        .standard { defaultGreed := .lazy } = .ok matcher' ∧
      (matcher'.matchGuarded? (fun bindings => bindings.get? "x" == some (.list []))
        (.list [.symbol "a", .symbol "b"])).isSome = true := by
  obtain ⟨matcher, compiled⟩ : ∃ matcher : Matcher Nat,
      compile (.list [.bind "x", .repetition 0 none, .bind "y", .repetition 1 (some .greedy)])
        .standard {} = .ok matcher := ⟨_, rfl⟩
  have never := @greed_never_decides_match Nat _
    (.list [.bind "x", .repetition 0 none, .bind "y", .repetition 1 (some .greedy)])
    (.list [.bind "x", .repetition 0 (some .greedy), .bind "y", .repetition 1 none]) rfl
    {} { defaultGreed := .lazy } rfl .standard
  rcases never.1.mp ⟨matcher, compiled⟩ with ⟨matcher', compiled'⟩
  refine ⟨matcher, matcher', compiled, compiled', ?_⟩
  rw [← (never.2 matcher matcher' compiled compiled' _).2, matchGuarded?,
    (compiled_of_compile compiled).bindingsOf_search]
  rfl

end Matcher

end Destructure
