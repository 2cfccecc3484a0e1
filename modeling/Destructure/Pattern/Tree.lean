import Destructure.Pattern.Outline

/-!
A pattern as a table of linked nodes. Nodes are addressed by their numbers. Each knows its parent
and its children and, when it stands in a row, the siblings before and after it. From any node one
can look around in all directions, which is what checking a pattern needs.
-/

namespace Destructure

structure Node (α : Type) where
  kind : NodeKind α
  parent : Option Nat
  children : List Nat
  /-- The sibling behind the node, if they stand in a row. -/
  next : Option Nat
  /-- The sibling before the node, if they stand in a row. -/
  previous : Option Nat

structure Tree (α : Type) where
  nodes : Array (Node α)

namespace Tree

variable {α : Type}

def leadingId? : List (Outline α) → Option Nat
  | outline :: _ => some outline.id
  | [] => none

mutual
def link (parent previous next : Option Nat) : Outline α → List (Node α)
  | .node id kind children =>
    ⟨kind, parent, children.map Outline.id, next, previous⟩ ::
      linkRow id kind.isOrdered none children
termination_by structural outline => outline

/-- The nodes of siblings; only those that stand in a row are linked with each other. -/
def linkRow (parent : Nat) (ordered : Bool) (previous : Option Nat) :
    List (Outline α) → List (Node α)
  | [] => []
  | outline :: outlines =>
    let next := if ordered then leadingId? outlines else none
    link (some parent) previous next outline ++
      linkRow parent ordered (if ordered then some outline.id else none) outlines
termination_by structural outlines => outlines
end

def ofOutline (outline : Outline α) : Tree α := ⟨(link none none none outline).toArray⟩

def build (pattern : Pattern α) (options : Options) : Tree α :=
  ofOutline (Outline.ofPattern options.defaultGreed pattern)

/-! ## Filling in place

The same table made node by node: a node is put at the end without the links to its parts, the parts
are added behind it, and then the links are written into the nodes that are there. -/

def linkSiblings : List Nat → Array (Node α) → Array (Node α)
  | before :: behind :: others, nodes =>
    let nodes := nodes.modify before fun node => { node with next := some behind }
    let nodes := nodes.modify behind fun node => { node with previous := some before }
    linkSiblings (behind :: others) nodes
  | _, nodes => nodes

def addNode (kind : NodeKind α) (parent : Option Nat)
    (addParts : Nat → Array (Node α) → List Nat × Array (Node α)) (nodes : Array (Node α)) :
    Nat × Array (Node α) :=
  let id := nodes.size
  let (children, nodes) := addParts id (nodes.push ⟨kind, parent, [], none, none⟩)
  let nodes := if kind.isOrdered then linkSiblings children nodes else nodes
  (id, nodes.modify id fun node => { node with children := children })

def addLeaf (kind : NodeKind α) (parent : Option Nat) : Array (Node α) → Nat × Array (Node α) :=
  addNode kind parent fun _ nodes => ([], nodes)

mutual
/-- Add the nodes of a pattern to a table. The number of the first of them comes back with it. -/
def add (defaultGreed : Greed) : Pattern α → Option Nat → Array (Node α) → Nat × Array (Node α)
  | .literal value, parent => addLeaf (.test (.equal value)) parent
  | .compared value accepts, parent => addLeaf (.test (.compared value accepts)) parent
  | .kind category, parent => addLeaf (.test (.kind category)) parent
  | .bind name, parent => addLeaf (.bind name) parent
  | .wildcard, parent => addLeaf .wildcard parent
  | .deconstruct shape items, parent =>
    addNode (.deconstruct shape) parent (addAll defaultGreed items)
  | .keyed shape entries, parent =>
    addNode (.keyed shape (entries.map Prod.fst)) parent (addEntries defaultGreed entries)
  | .repetition minimum greed, parent =>
    addLeaf (.repetition minimum (greed.getD defaultGreed)) parent
  | .sequence items, parent => addNode .sequence parent (addAll defaultGreed items)
  | .and operands, parent => addNode .and parent (addAll defaultGreed operands)
  | .or operands, parent => addNode .or parent (addAll defaultGreed operands)
  | .not operands, parent => addNode .not parent (addAll defaultGreed operands)
  | .condition accepts, parent => addLeaf (.condition accepts) parent
termination_by structural pattern => pattern

def addAll (defaultGreed : Greed) :
    List (Pattern α) → Nat → Array (Node α) → List Nat × Array (Node α)
  | [], _, nodes => ([], nodes)
  | pattern :: patterns, parent, nodes =>
    let (id, nodes) := add defaultGreed pattern (some parent) nodes
    let (ids, nodes) := addAll defaultGreed patterns parent nodes
    (id :: ids, nodes)
termination_by structural patterns => patterns

def addEntries (defaultGreed : Greed) :
    List (Value α × Pattern α) → Nat → Array (Node α) → List Nat × Array (Node α)
  | [], _, nodes => ([], nodes)
  | (_, pattern) :: entries, parent, nodes =>
    let (id, nodes) := add defaultGreed pattern (some parent) nodes
    let (ids, nodes) := addEntries defaultGreed entries parent nodes
    (id :: ids, nodes)
termination_by structural entries => entries
end

def fill (pattern : Pattern α) (options : Options) : Tree α :=
  ⟨(add options.defaultGreed pattern none #[]).2⟩

/-! ## Looking around -/

def root : Nat := 0

def size (tree : Tree α) : Nat := tree.nodes.size

def ids (tree : Tree α) : List Nat := List.range tree.size

def node? (tree : Tree α) (id : Nat) : Option (Node α) := tree.nodes[id]?

def kind? (tree : Tree α) (id : Nat) : Option (NodeKind α) := (tree.node? id).map Node.kind

def children (tree : Tree α) (id : Nat) : List Nat :=
  match tree.node? id with
  | some node => node.children
  | none => []

def parent? (tree : Tree α) (id : Nat) : Option Nat := (tree.node? id).bind Node.parent

def next? (tree : Tree α) (id : Nat) : Option Nat := (tree.node? id).bind Node.next

def previous? (tree : Tree α) (id : Nat) : Option Nat := (tree.node? id).bind Node.previous

def firstChild? (tree : Tree α) (id : Nat) : Option Nat := (tree.children id).head?

def isKind (tree : Tree α) (property : NodeKind α → Bool) (id : Nat) : Bool :=
  (tree.kind? id).any property

def repetitionOf? (tree : Tree α) (id : Nat) : Option Nat :=
  (tree.next? id).filter (tree.isKind NodeKind.isRepetition)

/-- The sibling to go on with after the node and its repetition. -/
def after? (tree : Tree α) (id : Nat) : Option Nat :=
  match tree.repetitionOf? id with
  | some repetition => tree.next? repetition
  | none => tree.next? id

/-- The nodes above a node, nearest first. Every step leads to a smaller number, so the number of
the node bounds them. -/
def ancestorsWithin (tree : Tree α) : Nat → Nat → List Nat
  | 0, _ => []
  | bound + 1, id =>
    match tree.parent? id with
    | some parent => parent :: ancestorsWithin tree bound parent
    | none => []

def ancestors (tree : Tree α) (id : Nat) : List Nat := tree.ancestorsWithin id id

def bindersWithin (tree : Tree α) : Nat → Nat → List (Nat × String)
  | 0, _ => []
  | bound + 1, id =>
    match tree.kind? id with
    | some (.bind name) => [(id, name)]
    | _ => (tree.children id).flatMap (bindersWithin tree bound)

def binders (tree : Tree α) (id : Nat) : List (Nat × String) :=
  tree.bindersWithin (tree.size - id) id

/-! ## Paths -/

def place (tree : Tree α) (parent id : Nat) : Nat := ((tree.children parent).idxOf? id).getD 0

def climb (tree : Tree α) : Nat → Nat → List Nat
  | 0, _ => []
  | bound + 1, id =>
    match tree.parent? id with
    | some parent => tree.place parent id :: climb tree bound parent
    | none => []

def path (tree : Tree α) (id : Nat) : List Nat := (tree.climb id id).reverse

end Tree

def pathText (path : List Nat) : String :=
  if path.isEmpty then "/" else String.join (path.map fun place => "/" ++ toString place)

end Destructure
