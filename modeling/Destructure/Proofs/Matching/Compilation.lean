import Destructure.Proofs.Matching.Correspondence
import Destructure.Proofs.Pattern.Units

/-!
When compilation succeeds, and how far its tables reach. A pattern compiles exactly if it is well
formed and there is a decomposer for each of its shapes. Then everything that a search looks up by
the number of a node is there.
-/

namespace Destructure

variable {α : Type}

open Outline (number numberAll)

/-! ## Shapes -/

def NodeKind.shapeName? : NodeKind α → Option String
  | deconstruct (.named name) => some name
  | _ => none

namespace Pattern

def shapeName? : Pattern α → Option String
  | deconstruct (.named name) _ => some name
  | _ => none

theorem shapeName?_nodeKind (defaultGreed : Greed) (pattern : Pattern α) :
    (pattern.nodeKind defaultGreed).shapeName? = pattern.shapeName? := by
  cases pattern with
  | deconstruct shape items => cases shape <;> rfl
  | _ => rfl

def shapeNames (pattern : Pattern α) : List String := pattern.preorder.filterMap shapeName?

theorem shapeNames_eq (defaultGreed : Greed) (pattern : Pattern α) :
    ((Outline.ofPattern defaultGreed pattern).preorder.map Outline.kind).filterMap
      NodeKind.shapeName? = pattern.shapeNames := by
  rw [Outline.ofPattern, (Outline.kinds_numbers defaultGreed).item pattern 0, List.filterMap_map,
    shapeNames]
  exact List.filterMap_congr fun part _ => shapeName?_nodeKind defaultGreed part

end Pattern

/-! ## Nodes -/

def Tree.Carries (tree : Tree α) (node : Outline α) : Prop :=
  tree.kind? node.id = some node.kind ∧ tree.children node.id = node.children.map Outline.id

theorem Tree.carries_numbers (tree : Tree α) (defaultGreed : Greed) :
    Pattern.Compositional (α := α)
      (fun pattern => ∀ parent previous next first,
        tree.Seats defaultGreed parent previous next pattern first →
        ∀ node ∈ (number defaultGreed pattern first).1.preorder, tree.Carries node)
      (fun patterns => ∀ above ordered previous first,
        tree.SeatsRow defaultGreed above ordered previous patterns first →
        ∀ node ∈ (numberAll defaultGreed patterns first).1.flatMap Outline.preorder,
          tree.Carries node) where
  whole pattern ofParts parent previous next first seats := by
    have known := seats.node?_eq
    rw [Outline.number_eq, Outline.preorder_node]
    exact List.forall_mem_cons.mpr
      ⟨⟨kind?_eq known, children_eq known⟩, ofParts _ _ _ _ seats.parts⟩
  nil _ _ _ _ _ := List.forall_mem_nil _
  cons item items ofItem ofItems above ordered previous first seats := by
    rw [Outline.numberAll_cons, List.flatMap_cons]
    exact List.forall_mem_append.mpr ⟨ofItem _ _ _ _ seats.head, ofItems _ _ _ _ seats.tail⟩

/-- No row starts with a repetition, before or after any of its repetitions. -/
def Outline.Founded (node : Outline α) : Prop :=
  ∀ place repetition, node.children[place]? = some repetition → repetition.kind.isRepetition →
    ∃ before unit, place = before + 1 ∧ node.children[before]? = some unit ∧
      unit.kind.isRepetition = false

theorem Outline.kinds_numberAll (defaultGreed : Greed) (patterns : List (Pattern α)) (first : Nat) :
    (numberAll defaultGreed patterns first).1.map kind =
      patterns.map (Pattern.nodeKind defaultGreed) := by
  induction patterns generalizing first with
  | nil => rfl
  | cons pattern patterns induction =>
      rw [numberAll_cons, List.map_cons, List.map_cons, induction, kind_number]

theorem Pattern.Founded.number {pattern : Pattern α} (founded : Pattern.Founded pattern.parts)
    (defaultGreed : Greed) (first : Nat) :
    (Outline.number defaultGreed pattern first).1.Founded := by
  rw [Outline.number_eq]
  intro place repetition present isRepetition
  have kinds (place : Nat) := congrArg (·[place]?)
    (Outline.kinds_numberAll defaultGreed pattern.parts (first + 1))
  simp only [List.getElem?_map] at kinds
  have here := kinds place
  rw [Outline.children] at present
  rw [present, Option.map_some] at here
  rcases Option.map_eq_some_iff.mp here.symm with ⟨part, atPlace, kind⟩
  rw [← kind, Pattern.isRepetition_nodeKind] at isRepetition
  rcases founded place part atPlace isRepetition with ⟨before, unit, behind, atBefore, plain⟩
  have there := kinds before
  rw [atBefore, Option.map_some] at there
  rcases Option.map_eq_some_iff.mp there with ⟨outline, atOutline, kind⟩
  exact ⟨before, outline, behind, atOutline, by rw [kind, Pattern.isRepetition_nodeKind, plain]⟩

theorem Outline.founded_numbers (defaultGreed : Greed) : Pattern.Compositional (α := α)
    (fun pattern => pattern.Steady →
      ∀ first, ∀ node ∈ (number defaultGreed pattern first).1.preorder, node.Founded)
    (fun patterns => (∀ pattern ∈ patterns, pattern.Steady) →
      ∀ first, ∀ node ∈ (numberAll defaultGreed patterns first).1.flatMap preorder,
        node.Founded) where
  whole pattern ofParts steady first := by
    have here := steady.founded.number defaultGreed first
    rw [number_eq] at here ⊢
    rw [preorder_node]
    exact List.forall_mem_cons.mpr ⟨here, ofParts (fun _ => steady.part) _⟩
  nil _ _ := List.forall_mem_nil _
  cons item items ofItem ofItems steady first := by
    rcases List.forall_mem_cons.mp steady with ⟨steadyItem, steadyItems⟩
    rw [numberAll_cons, List.flatMap_cons]
    exact List.forall_mem_append.mpr ⟨ofItem steadyItem _, ofItems steadyItems _⟩

namespace Matcher

section

variable (registry : Registry α)

theorem exists_resolved {kind : NodeKind α} (plain : kind.shapeName? = none) :
    ∃ first, ∀ kinds, resolveAll registry (kind :: kinds) =
      (resolveAll registry kinds).map (first :: ·) := by
  cases kind with
  | deconstruct shape =>
      cases shape with
      | named name => cases plain
      | record tag => exact ⟨some (.record tag), fun kinds => rfl⟩
      | regex expression => exact ⟨some (.regex expression), fun kinds => rfl⟩
  | _ => exact ⟨none, fun kinds => rfl⟩

theorem resolveAll_named {kind : NodeKind α} {name : String} (named : kind.shapeName? = some name)
    (kinds : List (NodeKind α)) :
    resolveAll registry (kind :: kinds) =
      match registry.find? name with
      | some decomposer => (resolveAll registry kinds).map (some decomposer :: ·)
      | none => .error (.unimplementedShape name) := by
  cases kind with
  | deconstruct shape =>
      cases shape with
      | named other =>
          cases named
          simp only [resolveAll, Registry.resolve]
          cases registry.find? name <;> rfl
      | _ => cases named
  | _ => cases named

theorem resolveAll_of_contains (kinds : List (NodeKind α))
    (registered : ∀ name ∈ kinds.filterMap NodeKind.shapeName?, registry.contains name) :
    ∃ decomposers, resolveAll registry kinds = .ok decomposers := by
  induction kinds with
  | nil => exact ⟨[], rfl⟩
  | cons kind kinds induction =>
      cases named : kind.shapeName? with
      | none =>
          rw [List.filterMap_cons_none named] at registered
          rcases induction registered with ⟨others, resolved⟩
          rcases exists_resolved registry named with ⟨first, equal⟩
          exact ⟨first :: others, by rw [equal, resolved]; rfl⟩
      | some name =>
          rw [List.filterMap_cons_some named] at registered
          rcases List.forall_mem_cons.mp registered with ⟨known, registered⟩
          rcases induction registered with ⟨others, resolved⟩
          rcases Option.isSome_iff_exists.mp known with ⟨decomposer, found⟩
          refine ⟨some decomposer :: others, ?_⟩
          rw [resolveAll_named registry named, found, resolved]
          rfl

/-- Without its decomposer, the first shape is an error. -/
theorem resolveAll_of_find? (kinds : List (NodeKind α)) {name : String}
    (missing : (kinds.filterMap NodeKind.shapeName?).find? (fun name => !registry.contains name) =
      some name) :
    resolveAll registry kinds = .error (.unimplementedShape name) := by
  induction kinds with
  | nil => cases missing
  | cons kind kinds induction =>
      cases named : kind.shapeName? with
      | none =>
          rw [List.filterMap_cons_none named] at missing
          rcases exists_resolved registry named with ⟨first, equal⟩
          rw [equal, induction missing]
          rfl
      | some here =>
          rw [List.filterMap_cons_some named, List.find?_cons] at missing
          rw [resolveAll_named registry named]
          rw [Registry.contains] at missing
          cases found : registry.find? here with
          | none =>
              rw [found] at missing
              cases missing
              rfl
          | some decomposer =>
              rw [found] at missing
              simp only
              rw [induction missing]
              rfl

end

section

variable [BEq α] {pattern : Pattern α} {registry : Registry α} {options : Options}

theorem compile_of_malformed {malformed : Malformed α}
    (found : (Tree.build pattern options).malformed? options = some malformed) :
    compile pattern registry options = .error (.malformed malformed) := by
  rw [Tree.build] at found
  simp only [compile, found]

theorem compile_of_find? (accepted : (Tree.build pattern options).malformed? options = none)
    {name : String}
    (missing : pattern.shapeNames.find? (fun name => !registry.contains name) = some name) :
    compile pattern registry options = .error (.unimplementedShape name) := by
  rw [Tree.build] at accepted
  rw [← Pattern.shapeNames_eq options.defaultGreed] at missing
  simp only [compile, accepted, resolveAll_of_find? registry _ missing]

theorem compile_of_contains (accepted : (Tree.build pattern options).malformed? options = none)
    (registered : ∀ name ∈ pattern.shapeNames, registry.contains name) :
    ∃ matcher, compile pattern registry options = .ok matcher := by
  rw [Tree.build] at accepted
  rw [← Pattern.shapeNames_eq options.defaultGreed] at registered
  rcases resolveAll_of_contains registry _ registered with ⟨decomposers, resolved⟩
  simp only [compile, accepted, resolved]
  exact ⟨_, rfl⟩

theorem compile_eq_ok_iff :
    (∃ matcher, compile pattern registry options = .ok matcher) ↔
      (Tree.build pattern options).malformed? options = none ∧
        ∀ name ∈ pattern.shapeNames, registry.contains name := by
  refine ⟨?_, fun known => compile_of_contains known.1 known.2⟩
  rintro ⟨matcher, compiled⟩
  cases found : (Tree.build pattern options).malformed? options with
  | some malformed =>
      rw [compile_of_malformed found] at compiled
      cases compiled
  | none =>
      refine ⟨rfl, ?_⟩
      cases missing : pattern.shapeNames.find? (fun name => !registry.contains name) with
      | some name =>
          rw [compile_of_find? found missing] at compiled
          cases compiled
      | none => simpa using missing

end

/-! ## Ranges -/

/-- Every number that a search looks up is in range, and behind every unit that is repeated stands
its repetition. -/
structure Equipped (matcher : Matcher α) : Prop where
  /-- The nodes that are matched are those of the table. -/
  nodes : ∀ node ∈ matcher.outline.preorder, matcher.tree.Carries node
  decomposers : matcher.decomposers.size = matcher.tree.size
  depths : matcher.depths.size = matcher.tree.size
  openers : matcher.openers.size = matcher.tree.size
  branching : matcher.branching.size = matcher.tree.size
  opened : ∀ row ∈ matcher.openers, ∀ opener ∈ row, opener.1 < matcher.tree.size
  names : ∀ place ∈ matcher.names, place.2 < matcher.tree.size
  repeatedNames : ∀ ids ∈ matcher.repeatedNames, ids ≠ [] ∧ ∀ id ∈ ids, id < matcher.tree.size
  /-- What repeats a node is a repetition. -/
  repetitions : ∀ id repetition, matcher.tree.repetitionOf? id = some repetition →
    ∃ minimum greed, matcher.tree.kind? repetition = some (.repetition minimum greed)
  founded : ∀ node ∈ matcher.outline.preorder, node.Founded
  root : matcher.outline.kind.isRepetition = false

theorem length_resolveAll {registry : Registry α} {kinds : List (NodeKind α)}
    {decomposers : List (Option (Decomposer α))}
    (resolved : resolveAll registry kinds = .ok decomposers) :
    decomposers.length = kinds.length := by
  induction kinds generalizing decomposers with
  | nil =>
      cases resolved
      rfl
  | cons kind kinds induction =>
      rcases resolveAll_cons resolved with ⟨first, others, rfl, ok, -⟩
      rw [List.length_cons, List.length_cons, induction ok]

section

variable [BEq α] {pattern : Pattern α} {registry : Registry α} {options : Options}
variable {matcher : Matcher α} (compiled : compile pattern registry options = .ok matcher)
include compiled

theorem tables_of_compile : matcher.tree = Tree.build pattern options ∧
    (matcher.decomposers.size = matcher.tree.size ∧ matcher.depths.size = matcher.tree.size ∧
      matcher.openers.size = matcher.tree.size ∧ matcher.branching.size = matcher.tree.size) ∧
    ∀ row ∈ matcher.openers, ∃ repetition,
      row = openedBy (matcher.outline.binders []) repetition := by
  rw [(compiled_of_compile compiled).size]
  simp only [compile] at compiled
  split at compiled
  case h_1 => cases compiled
  case h_2 =>
    split at compiled
    case h_1 => cases compiled
    case h_2 decomposers resolved =>
      cases compiled
      refine ⟨rfl, by simp [length_resolveAll resolved], ?_⟩
      intro row member
      rcases List.mem_map.mp (List.mem_toArray.mp member) with ⟨node, -, rfl⟩
      exact ⟨node.id, rfl⟩

/-- The tables of a pattern that compiles reach as far as a search looks. -/
theorem equipped_of_compile (formed : pattern.WellFormed options) : matcher.Equipped := by
  have facts := compiled_of_compile compiled
  have below : ∀ id ∈ matcher.outline.preorder.map Outline.id, id < matcher.tree.size := by
    intro id listed
    rcases List.mem_map.mp listed with ⟨node, inside, rfl⟩
    exact facts.lt_size inside
  have placeBelow : ∀ place ∈ matcher.outline.places, place.2 < matcher.tree.size :=
    fun place member =>
      below _ ((Outline.sublist_ids_places _).subset (List.mem_map_of_mem member))
  rcases tables_of_compile compiled with
    ⟨tree, ⟨decomposers, depths, openers, branching⟩, openerRows⟩
  refine ⟨?_, decomposers, depths, openers, branching, ?_, ?_, ?_, ?_, ?_, ?_⟩
  · rw [facts.outline, tree]
    exact ((Tree.build pattern options).carries_numbers options.defaultGreed).item pattern
      none none none 0 (Tree.lists_ofOutline _)
  · intro row member opener inside
    rcases openerRows row member with ⟨repetition, rfl⟩
    rcases List.mem_filterMap.mp inside with ⟨binder, among, level⟩
    rcases Option.map_eq_some_iff.mp level with ⟨_, -, rfl⟩
    exact below _ (Outline.of_mem_binders.item matcher.outline [] binder among).1
  · rw [facts.names]
    exact fun place member => placeBelow place (Named.mem_of_mem_firsts member)
  · rw [facts.repeatedNames]
    intro ids member
    rcases List.mem_filter.mp member with ⟨grouped, several⟩
    refine ⟨List.ne_nil_of_length_pos (Nat.lt_trans Nat.one_pos (of_decide_eq_true several)), ?_⟩
    rcases List.mem_map.mp grouped with ⟨group, isGroup, rfl⟩
    rcases List.mem_map.mp isGroup with ⟨first, -, rfl⟩
    exact fun id listed => placeBelow _ (Named.mem_of_mem_under listed)
  · intro id repetition around
    rcases Option.filter_eq_some_iff.mp around with ⟨-, isRepetition⟩
    rw [Tree.isKind] at isRepetition
    cases known : matcher.tree.kind? repetition with
    | none =>
        rw [known] at isRepetition
        cases isRepetition
    | some kind =>
        rw [known] at isRepetition
        cases kind with
        | repetition minimum greed => exact ⟨minimum, greed, rfl⟩
        | _ => cases isRepetition
  · rw [facts.outline]
    exact (Outline.founded_numbers options.defaultGreed).item pattern formed.steady 0
  · rw [facts.outline, Outline.ofPattern, Outline.kind_number, Pattern.isRepetition_nodeKind]
    have takes := formed.takesValue
    cases pattern with
    | repetition minimum greed => cases takes
    | _ => rfl

end

end Matcher

end Destructure
