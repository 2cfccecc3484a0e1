import Destructure.Decomposition.Registry
import Destructure.Matching.Slots
import Destructure.Pattern.Printer
import Destructure.Pattern.Validation

/-!
Patterns made ready for matching. The pattern has been checked, its decomposers have been found,
and tables by node number say what the search needs to know about variables and repetitions.
-/

namespace Destructure

structure Matcher (α : Type) where
  source : Pattern α
  outline : Outline α
  tree : Tree α
  /-- The decomposer of each deconstruction. -/
  decomposers : Array (Option (Decomposer α))
  /-- How many repetitions stand around each variable. -/
  depths : Array Nat
  /-- For each repetition the variables that it starts a list for, and its level among the
  repetitions around them. -/
  openers : Array (List (Nat × Nat))
  /-- The names in order of their first occurrence, each with its first node. -/
  names : List (String × Nat)
  /-- The nodes of each name that occurs more than once. -/
  repeatedNames : List (List Nat)
  /-- Whether there is a repetition at or below each node. If there is none, the node matches a
  value in one way at most. -/
  branching : Array Bool

namespace Matcher

variable {α : Type}

/-! ## Tables -/

def depthOf (binders : List Outline.Binder) (id : Nat) : Nat :=
  match binders.find? fun binder => binder.id == id with
  | some binder => binder.repetitions.length
  | none => 0

def openedBy (binders : List Outline.Binder) (repetition : Nat) : List (Nat × Nat) :=
  binders.filterMap fun binder =>
    (binder.repetitions.idxOf? repetition).map fun level => (binder.id, level)

def addOccurrence (name : String) (id : Nat) : List (String × List Nat) → List (String × List Nat)
  | [] => [(name, [id])]
  | (present, ids) :: groups =>
    if present = name then (present, ids ++ [id]) :: groups
    else (present, ids) :: addOccurrence name id groups

def occurrences (binders : List Outline.Binder) : List (String × List Nat) :=
  binders.foldl (fun groups binder => addOccurrence binder.name binder.id groups) []

def firstOccurrences (groups : List (String × List Nat)) : List (String × Nat) :=
  groups.filterMap fun (name, ids) => ids.head?.map fun id => (name, id)

def repeatedOccurrences (groups : List (String × List Nat)) : List (List Nat) :=
  (groups.map Prod.snd).filter fun ids => 1 < ids.length

def resolveAll (registry : Registry α) :
    List (NodeKind α) → Except (Error α) (List (Option (Decomposer α)))
  | [] => .ok []
  | .deconstruct shape :: kinds =>
    match registry.resolve shape with
    | .error error => .error error
    | .ok decomposer => (resolveAll registry kinds).map (some decomposer :: ·)
  | _ :: kinds => (resolveAll registry kinds).map (none :: ·)

/-! ## Tables filled in place

The tables of nodes once more, made from the links of the nodes: a walk collects the variables, and
each of them is entered under its own number and those of the repetitions around it; whether nodes
branch is found out from the last one to the first. -/

/-- The variables from a node downwards, given the repetitions around the node. Every step leads to
a greater number, so the size of the table bounds them. -/
def collectWithin (tree : Tree α) : Nat → List Nat → Nat → List Outline.Binder
  | 0, _, _ => []
  | bound + 1, repetitions, id =>
    let repetitions := repetitions ++ (tree.repetitionOf? id).toList
    let here := match tree.kind? id with
      | some (.bind name) => [⟨id, name, repetitions⟩]
      | _ => []
    here ++ (tree.children id).flatMap (collectWithin tree bound repetitions)

def collect (tree : Tree α) : List Outline.Binder := collectWithin tree tree.size [] Tree.root

def fillDepths (size : Nat) (binders : List Outline.Binder) : Array Nat :=
  binders.foldl (fun depths binder => depths.setIfInBounds binder.id binder.repetitions.length)
    (Array.replicate size 0)

def addOpeners (openers : Array (List (Nat × Nat))) (binder : Outline.Binder) :
    Array (List (Nat × Nat)) :=
  binder.repetitions.zipIdx.foldl
    (fun openers (repetition, level) => openers.modify repetition (· ++ [(binder.id, level)]))
    openers

def fillOpeners (size : Nat) (binders : List Outline.Binder) : Array (List (Nat × Nat)) :=
  binders.foldl addOpeners (Array.replicate size [])

/-- The children of a node have greater numbers, so they have been seen to when the node is. -/
def sweep (tree : Tree α) : Array Bool :=
  tree.ids.foldr (fun id branching =>
    let below := (tree.children id).any fun child => branching.getD child false
    branching.setIfInBounds id (below || tree.isKind NodeKind.isRepetition id))
    (Array.replicate tree.size false)

/-! ## Compilation -/

def compile [BEq α] (pattern : Pattern α) (registry : Registry α) (options : Options) :
    Except (Error α) (Matcher α) :=
  let outline := Outline.ofPattern options.defaultGreed pattern
  let tree := Tree.ofOutline outline
  match tree.malformed? options with
  | some malformed => .error (.malformed malformed)
  | none =>
    let nodes := outline.preorder
    match resolveAll registry (nodes.map Outline.kind) with
    | .error error => .error error
    | .ok decomposers =>
      let binders := outline.binders []
      let groups := occurrences binders
      .ok {
        source := pattern
        outline := outline
        tree := tree
        decomposers := decomposers.toArray
        depths := (nodes.map fun node => depthOf binders node.id).toArray
        openers := (nodes.map fun node => openedBy binders node.id).toArray
        names := firstOccurrences groups
        repeatedNames := repeatedOccurrences groups
        branching := (nodes.map Outline.branches).toArray }

def variableNames (matcher : Matcher α) : List String := matcher.names.map Prod.fst

def text [Foreign α] (matcher : Matcher α) : String := matcher.source.text

def label [Foreign α] (matcher : Matcher α) : String := "Pattern(" ++ matcher.text ++ ")"

end Matcher

end Destructure
