import Destructure.Proofs.Pattern.Formation

/-!
The table of a pattern as a copy of it. Every number of the table belongs to one path into the
pattern, and each link is said of paths: a parent drops the last place, siblings differ in it by
one, and what is below a node has a path that goes on from that of the node. So the links agree
with each other, and the pattern can be read back from them.

Main statement: `Tree.copies_build`.
-/

namespace Destructure

variable {α : Type}

/-! ## Reading a table -/

namespace Pattern

mutual
def withDefaultGreed (defaultGreed : Greed) : Pattern α → Pattern α
  | repetition minimum greed => repetition minimum (some (greed.getD defaultGreed))
  | deconstruct shape items => deconstruct shape (allWithDefaultGreed defaultGreed items)
  | keyed shape entries => keyed shape (entriesWithDefaultGreed defaultGreed entries)
  | sequence items => sequence (allWithDefaultGreed defaultGreed items)
  | and operands => and (allWithDefaultGreed defaultGreed operands)
  | or operands => or (allWithDefaultGreed defaultGreed operands)
  | not operands => not (allWithDefaultGreed defaultGreed operands)
  | literal value => literal value
  | compared value accepts => compared value accepts
  | kind category => kind category
  | bind name => bind name
  | wildcard => wildcard
  | condition accepts => condition accepts
termination_by structural pattern => pattern

def allWithDefaultGreed (defaultGreed : Greed) : List (Pattern α) → List (Pattern α)
  | [] => []
  | pattern :: patterns =>
    withDefaultGreed defaultGreed pattern :: allWithDefaultGreed defaultGreed patterns
termination_by structural patterns => patterns

def entriesWithDefaultGreed (defaultGreed : Greed) :
    List (Value α × Pattern α) → List (Value α × Pattern α)
  | [] => []
  | (key, pattern) :: entries =>
    (key, withDefaultGreed defaultGreed pattern) :: entriesWithDefaultGreed defaultGreed entries
termination_by structural entries => entries
end

theorem allWithDefaultGreed_eq (defaultGreed : Greed) (patterns : List (Pattern α)) :
    allWithDefaultGreed defaultGreed patterns =
      patterns.map (withDefaultGreed defaultGreed) := by
  induction patterns with
  | nil => rfl
  | cons pattern patterns induction => rw [allWithDefaultGreed, induction, List.map_cons]

theorem entriesWithDefaultGreed_eq (defaultGreed : Greed) (entries : List (Value α × Pattern α)) :
    entriesWithDefaultGreed defaultGreed entries =
      entries.map fun entry => (entry.1, entry.2.withDefaultGreed defaultGreed) := by
  induction entries with
  | nil => rfl
  | cons entry entries induction => rw [entriesWithDefaultGreed, induction, List.map_cons]

end Pattern

def NodeKind.assemble : NodeKind α → List (Pattern α) → Pattern α
  | test (.equal value), _ => .literal value
  | test (.compared value accepts), _ => .compared value accepts
  | test (.kind category), _ => .kind category
  | bind name, _ => .bind name
  | wildcard, _ => .wildcard
  | deconstruct shape, parts => .deconstruct shape parts
  | keyed shape keys, parts => .keyed shape (keys.zip parts)
  | repetition minimum greed, _ => .repetition minimum (some greed)
  | sequence, parts => .sequence parts
  | and, parts => .and parts
  | or, parts => .or parts
  | not, parts => .not parts
  | condition accepts, _ => .condition accepts

theorem Pattern.assemble_nodeKind (defaultGreed : Greed) (pattern : Pattern α) :
    (pattern.nodeKind defaultGreed).assemble (pattern.parts.map (withDefaultGreed defaultGreed)) =
      pattern.withDefaultGreed defaultGreed := by
  cases pattern with
  | keyed shape entries =>
      rw [nodeKind, NodeKind.assemble, parts, List.map_map, List.zip_map', withDefaultGreed,
        entriesWithDefaultGreed_eq]
      rfl
  | deconstruct shape items => exact congrArg _ (allWithDefaultGreed_eq _ _).symm
  | sequence items => exact congrArg _ (allWithDefaultGreed_eq _ _).symm
  | and operands => exact congrArg _ (allWithDefaultGreed_eq _ _).symm
  | or operands => exact congrArg _ (allWithDefaultGreed_eq _ _).symm
  | not operands => exact congrArg _ (allWithDefaultGreed_eq _ _).symm
  | _ => rfl

namespace Tree

def readWithin (tree : Tree α) : Nat → Nat → Option (Pattern α)
  | 0, _ => none
  | bound + 1, id => do
    let kind ← tree.kind? id
    let parts ← (tree.children id).mapM (readWithin tree bound)
    return kind.assemble parts

def read (tree : Tree α) (id : Nat) : Option (Pattern α) := tree.readWithin (tree.size - id) id

theorem readWithin_numbers (tree : Tree α) (defaultGreed : Greed) : Pattern.Compositional (α := α)
    (fun pattern => ∀ first parent previous next bound,
      tree.Seats defaultGreed parent previous next pattern first → pattern.extent ≤ bound →
      tree.readWithin bound first = some (pattern.withDefaultGreed defaultGreed))
    (fun patterns => ∀ first above ordered previous bound,
      tree.SeatsRow defaultGreed above ordered previous patterns first →
      Pattern.rowExtent patterns ≤ bound →
      ((Outline.numberAll defaultGreed patterns first).1.map Outline.id).mapM
          (tree.readWithin bound) =
        some (patterns.map (Pattern.withDefaultGreed defaultGreed))) where
  whole pattern ofParts first parent previous next bound seats enough := by
    rw [Pattern.extent_eq] at enough
    cases bound with
    | zero => exact absurd enough (Nat.not_succ_le_zero _)
    | succ bound =>
        have parts := ofParts (first + 1) first _ none bound seats.parts
          (Nat.le_of_succ_le_succ enough)
        rw [readWithin, kind?_eq seats.node?_eq, children_eq seats.node?_eq, parts,
          ← Pattern.assemble_nodeKind]
        rfl
  nil first above ordered previous bound seats enough := rfl
  cons item items ofItem ofItems first above ordered previous bound seats enough := by
    rw [Pattern.rowExtent_cons] at enough
    rw [Outline.numberAll_cons, List.map_cons, List.mapM_cons, Outline.id_number,
      ofItem first _ _ _ bound seats.head (by omega),
      ofItems _ _ _ _ bound seats.tail (by omega)]
    rfl

end Tree

/-! ## Numbers and paths -/

namespace Pattern

theorem exists_of_preorder {pattern node : Pattern α} {id : Nat}
    (listed : pattern.preorder[id]? = some node) :
    ∃ path, pattern.at? path = some node ∧ pattern.numberAt 0 path = id := by
  have inside : id < 0 + pattern.extent := by
    rw [Nat.zero_add]
    exact (List.getElem?_eq_some_iff.mp listed).1
  rcases exists_path.item pattern 0 id (Nat.zero_le id) inside with ⟨path, found, present, rfl⟩
  have there := preorder_at? present 0
  rw [Nat.sub_zero, listed] at there
  cases there
  exact ⟨path, present, rfl⟩

def IsPart (pattern : Pattern α) (parent place id : Nat) : Prop :=
  ∃ above holder part, pattern.at? above = some holder ∧ holder.parts[place]? = some part ∧
    pattern.numberAt 0 above = parent ∧ pattern.numberAt 0 (above ++ [place]) = id

theorem at?_part {pattern holder part : Pattern α} {above : List Nat} {place : Nat}
    (present : pattern.at? above = some holder) (atPlace : holder.parts[place]? = some part) :
    pattern.at? (above ++ [place]) = some part := by
  rw [at?_concat, present, Option.bind_some, atPlace]

/-- A number is a part of one node at most, and at one place there. -/
theorem IsPart.unique {pattern : Pattern α} {parent parent' place place' id : Nat}
    (isPart : pattern.IsPart parent place id) (isPart' : pattern.IsPart parent' place' id) :
    parent = parent' ∧ place = place' := by
  rcases isPart with ⟨above, holder, part, present, atPlace, rfl, rfl⟩
  rcases isPart' with ⟨above', holder', part', present', atPlace', rfl, same⟩
  have equal := numberAt_injective (at?_part present' atPlace') (at?_part present atPlace) same
  rcases List.append_inj' equal rfl with ⟨rfl, places⟩
  exact ⟨rfl, (List.singleton_inj.mp places).symm⟩

end Pattern

namespace Tree

section

variable (pattern : Pattern α) (options : Options)

theorem seats_build : (build pattern options).Seats options.defaultGreed none none none pattern 0 :=
  lists_ofOutline _

theorem size_build : (build pattern options).size = pattern.extent := by
  rw [build, size, ofOutline, List.size_toArray, length_link.item, Outline.ofPattern,
    Outline.length_number]

end

variable {pattern node : Pattern α} {options : Options}

theorem exists_at?_of_lt {id : Nat} (inside : id < (build pattern options).size) :
    ∃ path node, pattern.at? path = some node ∧ pattern.numberAt 0 path = id := by
  rw [size_build] at inside
  exact Pattern.exists_path.item pattern 0 id (Nat.zero_le id) (by rwa [Nat.zero_add])

theorem exists_at?_of_node? {id : Nat} {entry : Node α}
    (listed : (build pattern options).node? id = some entry) :
    ∃ path node, pattern.at? path = some node ∧ pattern.numberAt 0 path = id :=
  exists_at?_of_lt (Array.getElem?_eq_some_iff.mp listed).1

theorem kind?_build (id : Nat) :
    (build pattern options).kind? id =
      pattern.preorder[id]?.map (Pattern.nodeKind options.defaultGreed) := by
  cases listed : pattern.preorder[id]? with
  | none =>
      have outside : (build pattern options).nodes.size ≤ id := by
        change (build pattern options).size ≤ id
        rw [size_build]
        exact List.getElem?_eq_none_iff.mp listed
      rw [kind?, node?, Array.getElem?_eq_none outside]
      rfl
  | some node =>
      rcases Pattern.exists_of_preorder listed with ⟨path, present, rfl⟩
      exact kind?_at (seats_build pattern options) present

/-! ## Links -/

theorem getElem?_children_iff {parent place id : Nat} :
    ((build pattern options).children parent)[place]? = some id ↔
      pattern.IsPart parent place id := by
  constructor
  · intro listed
    cases known : (build pattern options).node? parent with
    | none =>
        rw [children, known] at listed
        cases listed
    | some entry =>
        rcases exists_at?_of_node? known with ⟨above, holder, present, rfl⟩
        rw [children_at (seats_build pattern options) present, List.getElem?_map,
          Option.map_eq_some_iff] at listed
        rcases listed with ⟨place', inRange, rfl⟩
        rcases List.getElem?_eq_some_iff.mp inRange with ⟨inside, same⟩
        rw [List.getElem_range] at same
        rw [List.length_range] at inside
        subst same
        have atPlace := List.getElem?_eq_getElem inside
        exact ⟨above, holder, _, present, atPlace, rfl, Pattern.numberAt_concat present atPlace⟩
  · rintro ⟨above, holder, part, present, atPlace, rfl, rfl⟩
    have inside : place < holder.parts.length := (List.getElem?_eq_some_iff.mp atPlace).1
    rw [children_at (seats_build pattern options) present, List.getElem?_map,
      List.getElem?_range inside, Option.map_some, Pattern.numberAt_concat present atPlace]

theorem mem_children_iff {parent id : Nat} :
    id ∈ (build pattern options).children parent ↔ ∃ place, pattern.IsPart parent place id := by
  rw [List.mem_iff_getElem?]
  exact exists_congr fun place => getElem?_children_iff

theorem node?_root : (build pattern options).node? root =
    some ⟨pattern.nodeKind options.defaultGreed, none,
      (Outline.numberAll options.defaultGreed pattern.parts 1).1.map Outline.id, none, none⟩ :=
  (seats_build pattern options).node?_eq

/-- A node with a link that the root does not have is a part of another one. -/
theorem exists_part_of_link {link : Node α → Option Nat}
    (notRoot : ∀ kind children, link ⟨kind, none, children, none, none⟩ = none) {id target : Nat}
    (linked : ((build pattern options).node? id).bind link = some target) :
    ∃ above holder place part, pattern.at? above = some holder ∧
      holder.parts[place]? = some part ∧ pattern.numberAt 0 (above ++ [place]) = id := by
  rcases Option.bind_eq_some_iff.mp linked with ⟨entry, listed, leads⟩
  rcases exists_at?_of_node? listed with ⟨path, node, present, rfl⟩
  rcases List.eq_nil_or_concat' path with rfl | ⟨above, place, rfl⟩
  · cases node?_root.symm.trans listed
    rw [notRoot] at leads
    cases leads
  · rcases Pattern.exists_holder present with ⟨holder, present', atPlace⟩
    exact ⟨above, holder, place, node, present', atPlace, rfl⟩

theorem parent?_eq_some_iff {parent id : Nat} :
    (build pattern options).parent? id = some parent ↔
      ∃ place, pattern.IsPart parent place id := by
  constructor
  · intro linked
    rcases exists_part_of_link (fun _ _ => rfl) linked with
      ⟨above, holder, place, part, present, atPlace, rfl⟩
    rw [parent?_at (seats_build pattern options) present atPlace] at linked
    exact ⟨place, above, holder, part, present, atPlace, Option.some.inj linked, rfl⟩
  · rintro ⟨place, above, holder, part, present, atPlace, rfl, rfl⟩
    exact parent?_at (seats_build pattern options) present atPlace

def Adjacent (tree : Tree α) (before behind : Nat) : Prop :=
  ∃ parent kind place, tree.kind? parent = some kind ∧ kind.isOrdered ∧
    (tree.children parent)[place]? = some before ∧
    (tree.children parent)[place + 1]? = some behind

theorem adjacent_iff {before behind : Nat} :
    (build pattern options).Adjacent before behind ↔
      ∃ above holder place part later, pattern.at? above = some holder ∧ holder.isOrdered ∧
        holder.parts[place]? = some part ∧ holder.parts[place + 1]? = some later ∧
        pattern.numberAt 0 (above ++ [place]) = before ∧
        pattern.numberAt 0 (above ++ [place + 1]) = behind := by
  constructor
  · rintro ⟨parent, kind, place, isKind, ordered, atBefore, atBehind⟩
    rcases getElem?_children_iff.mp atBefore with
      ⟨above, holder, part, present, atPlace, rfl, rfl⟩
    rcases getElem?_children_iff.mp atBehind with
      ⟨above', holder', later, present', atNext, same, rfl⟩
    cases Pattern.numberAt_injective present' present same
    cases present.symm.trans present'
    rw [kind?_at (seats_build pattern options) present] at isKind
    cases isKind
    rw [Pattern.isOrdered_nodeKind] at ordered
    exact ⟨above, holder, place, part, later, present, ordered, atPlace, atNext, rfl, rfl⟩
  · rintro ⟨above, holder, place, part, later, present, ordered, atPlace, atNext, rfl, rfl⟩
    refine ⟨_, _, place, kind?_at (seats_build pattern options) present, ?_,
      getElem?_children_iff.mpr ⟨above, holder, part, present, atPlace, rfl, rfl⟩,
      getElem?_children_iff.mpr ⟨above, holder, later, present, atNext, rfl, rfl⟩⟩
    rwa [Pattern.isOrdered_nodeKind]

theorem next?_eq_some_iff {before behind : Nat} :
    (build pattern options).next? before = some behind ↔
      (build pattern options).Adjacent before behind := by
  rw [adjacent_iff]
  have seats := seats_build pattern options
  constructor
  · intro linked
    rcases exists_part_of_link (fun _ _ => rfl) linked with
      ⟨above, holder, place, part, present, atPlace, rfl⟩
    by_cases beside : holder.isOrdered ∧ place + 1 < holder.parts.length
    · have atNext := List.getElem?_eq_getElem beside.2
      rw [next?_at seats present beside.1 atPlace atNext] at linked
      exact ⟨above, holder, place, part, _, present, beside.1, atPlace, atNext, rfl,
        Option.some.inj linked⟩
    · rw [next?_at_eq_none seats present atPlace fun ordered => List.getElem?_eq_none
        (Nat.le_of_not_lt fun inside => beside ⟨ordered, inside⟩)] at linked
      cases linked
  · rintro ⟨above, holder, place, part, later, present, ordered, atPlace, atNext, rfl, rfl⟩
    exact next?_at seats present ordered atPlace atNext

theorem previous?_eq_some_iff {before behind : Nat} :
    (build pattern options).previous? behind = some before ↔
      (build pattern options).Adjacent before behind := by
  rw [adjacent_iff]
  have seats := seats_build pattern options
  constructor
  · intro linked
    rcases exists_part_of_link (fun _ _ => rfl) linked with
      ⟨above, holder, place, later, present, atPlace, rfl⟩
    rw [previous?, (seats_concat seats present atPlace).node?_eq, Option.bind_some] at linked
    cases place with
    | zero => cases linked
    | succ place =>
        rw [Pattern.rowPrevious] at linked
        split at linked
        next ordered =>
          have inside := (List.getElem?_eq_some_iff.mp atPlace).1
          have atBefore := List.getElem?_eq_getElem (Nat.lt_of_succ_lt inside)
          refine ⟨above, holder, place, _, later, present, ordered, atBefore, atPlace, ?_, rfl⟩
          rw [Pattern.numberAt_concat present atBefore]
          exact Option.some.inj linked
        next => cases linked
  · rintro ⟨above, holder, place, part, later, present, ordered, atPlace, atNext, rfl, rfl⟩
    exact previous?_at_succ seats present ordered atPlace atNext

/-! ## Subtrees -/

inductive Below (tree : Tree α) (top : Nat) : Nat → Prop
  | here : Below tree top top
  | child {id child : Nat} : Below tree top id → child ∈ tree.children id → Below tree top child

/-- What is below a node has a path that goes on from the path of the node. -/
theorem below_at_iff {path : List Nat} (present : pattern.at? path = some node) {id : Nat} :
    (build pattern options).Below (pattern.numberAt 0 path) id ↔
      ∃ further found, node.at? further = some found ∧
        pattern.numberAt 0 (path ++ further) = id := by
  constructor
  · intro below
    induction below with
    | here => exact ⟨[], node, rfl, by rw [List.append_nil]⟩
    | child below member induction =>
        rcases induction with ⟨further, found, onward, rfl⟩
        rcases mem_children_iff.mp member with
          ⟨place, above, holder, part, atAbove, atPlace, same, rfl⟩
        have atFound : pattern.at? (path ++ further) = some found := by
          rw [Pattern.at?_append_of_eq present, onward]
        obtain rfl := Pattern.numberAt_injective atAbove atFound same
        cases atAbove.symm.trans atFound
        refine ⟨further ++ [place], part, Pattern.at?_part onward atPlace, ?_⟩
        rw [List.append_assoc]
  · rintro ⟨further, found, onward, rfl⟩
    induction further using List.reverseRecOn generalizing found with
    | nil =>
        rw [List.append_nil]
        exact .here
    | append_singleton further place induction =>
        rcases Pattern.exists_holder onward with ⟨holder, onward', atPlace⟩
        refine .child (induction holder onward') (mem_children_iff.mpr ⟨place, path ++ further,
          holder, found, ?_, atPlace, rfl, ?_⟩)
        · rw [Pattern.at?_append_of_eq present, onward']
        · rw [List.append_assoc]

/-- The nodes of a subtree have consecutive numbers, from that of its root on. -/
theorem below_iff {id other : Nat} (listed : pattern.preorder[id]? = some node) :
    (build pattern options).Below id other ↔ id ≤ other ∧ other < id + node.extent := by
  rcases Pattern.exists_of_preorder listed with ⟨path, present, rfl⟩
  rw [below_at_iff present]
  constructor
  · rintro ⟨further, found, onward, rfl⟩
    rw [Pattern.numberAt_append present]
    exact ⟨Pattern.le_numberAt _ _ _, Pattern.numberAt_lt onward _⟩
  · rintro ⟨le, lt⟩
    rcases Pattern.exists_path.item node _ other le lt with ⟨further, found, onward, rfl⟩
    exact ⟨further, found, onward, Pattern.numberAt_append present further⟩

/-! ## The whole table -/

/-- The table is a copy of the pattern, with the default put in where a repetition states no
order. -/
structure Copies (tree : Tree α) (pattern : Pattern α) (defaultGreed : Greed) : Prop where
  /-- The numbers go through the nodes of the pattern in preorder. -/
  nodes : tree.ids.map tree.kind? =
    pattern.preorder.map fun node => some (node.nodeKind defaultGreed)
  /-- A node and everything below it have consecutive numbers. -/
  subtrees : ∀ id node, pattern.preorder[id]? = some node →
    ∀ other, tree.Below id other ↔ id ≤ other ∧ other < id + node.preorder.length
  parents : ∀ parent child, child ∈ tree.children parent ↔ tree.parent? child = some parent
  /-- Every node but the root is a child of exactly one node. -/
  parent : ∀ id < tree.size, id ≠ root → ∃! parent, id ∈ tree.children parent
  /-- No node has a child twice. -/
  children : ∀ parent, (tree.children parent).Nodup
  siblings : ∀ before behind,
    tree.next? before = some behind ↔ tree.previous? behind = some before
  adjacent : ∀ before behind, tree.next? before = some behind ↔ tree.Adjacent before behind
  /-- The pattern can be read back from the links. -/
  readBack : tree.read root = some (pattern.withDefaultGreed defaultGreed)
  /-- The path of a node leads to the part of the pattern that it was made of. -/
  paths : ∀ id node, pattern.preorder[id]? = some node → pattern.at? (tree.path id) = some node
  distinct : ∀ id < tree.size, ∀ other < tree.size, tree.path id = tree.path other → id = other

theorem nodup_children (parent : Nat) : ((build pattern options).children parent).Nodup := by
  rw [List.Nodup, List.pairwise_iff_getElem]
  intro place place' inside inside' before same
  have here := getElem?_children_iff.mp (List.getElem?_eq_getElem inside)
  have there := getElem?_children_iff.mp (List.getElem?_eq_getElem inside')
  rw [← same] at there
  exact Nat.ne_of_lt before (here.unique there).2

theorem existsUnique_parent {id : Nat} (inside : id < (build pattern options).size)
    (notRoot : id ≠ root) : ∃! parent, id ∈ (build pattern options).children parent := by
  rcases exists_at?_of_lt inside with ⟨path, node, present, rfl⟩
  rcases List.eq_nil_or_concat' path with rfl | ⟨above, place, rfl⟩
  · exact absurd rfl notRoot
  · rcases Pattern.exists_holder present with ⟨holder, present', atPlace⟩
    have isPart : pattern.IsPart (pattern.numberAt 0 above) place
        (pattern.numberAt 0 (above ++ [place])) :=
      ⟨above, holder, node, present', atPlace, rfl, rfl⟩
    refine ⟨pattern.numberAt 0 above, mem_children_iff.mpr ⟨place, isPart⟩, ?_⟩
    intro other member
    rcases mem_children_iff.mp member with ⟨place', isPart'⟩
    exact (isPart'.unique isPart).1

theorem path_of_lt {id : Nat} (inside : id < (build pattern options).size) :
    ∃ node, pattern.at? ((build pattern options).path id) = some node ∧
      pattern.numberAt 0 ((build pattern options).path id) = id := by
  rcases exists_at?_of_lt inside with ⟨path, node, present, rfl⟩
  rw [path_at (seats_build pattern options) present]
  exact ⟨node, present, rfl⟩

/-- The table of a pattern is a consistently linked copy of it. -/
theorem copies_build (pattern : Pattern α) (options : Options) :
    (build pattern options).Copies pattern options.defaultGreed where
  nodes := by
    have kinds : (build pattern options).kind? = fun id =>
        pattern.preorder[id]?.map (Pattern.nodeKind options.defaultGreed) := funext kind?_build
    rw [kinds, ids, size_build]
    apply List.ext_getElem (by simp [Pattern.extent])
    intro id inside inside'
    simp [List.getElem?_eq_getElem (by simpa using inside' : id < pattern.preorder.length)]
  subtrees id node listed other := below_iff listed
  parents parent child := mem_children_iff.trans parent?_eq_some_iff.symm
  parent id inside notRoot := existsUnique_parent inside notRoot
  children := nodup_children
  siblings before behind := next?_eq_some_iff.trans previous?_eq_some_iff.symm
  adjacent before behind := next?_eq_some_iff
  readBack := (readWithin_numbers _ _).item pattern 0 none none none _
    (seats_build pattern options) (size_build pattern options).ge
  paths id node listed := by
    rcases Pattern.exists_of_preorder listed with ⟨path, present, rfl⟩
    rw [path_at (seats_build pattern options) present, present]
  distinct id inside other inside' same := by
    rcases path_of_lt inside with ⟨node, -, numbered⟩
    rcases path_of_lt inside' with ⟨node', -, numbered'⟩
    rw [← numbered, same, numbered']

end Tree

end Destructure
