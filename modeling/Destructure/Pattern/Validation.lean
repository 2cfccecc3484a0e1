import Destructure.Pattern.Malformed

/-!
Checking the structure of a pattern. Nodes are visited in preorder and the first mistake is
reported. Repetitions need an item in front of them that is no repetition, sequences stand among
items, operators have operands, alternatives bind nothing, keys differ, and conditions stand where
nothing follows that could still bind a name.
-/

namespace Destructure.Tree

variable {α : Type}

def firstRepeated? {Element Key : Type} [BEq Key] (key : Element → Key) :
    (earlier : List Key) → List Element → Option Element
  | _, [] => none
  | earlier, element :: elements =>
    if earlier.any fun present => present == key element then some element
    else firstRepeated? key (key element :: earlier) elements

def keyMistake? [BEq α] (shape : KeyedShape) (keys : List (Value α)) :
    Option (Malformed.Cause α) :=
  if keys.isEmpty then some .keyedArity
  else
    match shape with
    | .map => (firstRepeated? (fun key => key) [] keys).map .duplicateKey
    | .record _ =>
      match keys.find? fun key => key.text?.isNone with
      | some key => some (.badFieldKey key)
      | none => (firstRepeated? Value.text? [] keys).map .duplicateKey

def atTail (tree : Tree α) (id : Nat) : Bool :=
  (tree.next? id).all (tree.isKind NodeKind.isCondition)

def amongItems (tree : Tree α) (id : Nat) : Bool :=
  (tree.parent? id).any (tree.isKind NodeKind.holdsItems)

def repetitionMistake? (tree : Tree α) (id : Nat) : Option (Malformed.Cause α) :=
  if !tree.amongItems id then some .misplacedQuantifier
  else
    match tree.previous? id with
    | none => some .danglingQuantifier
    | some previous =>
      if tree.isKind NodeKind.isRepetition previous then some .stackedQuantifier else none

/-- A condition stands among items, in no alternative, and neither it nor a node above it is
followed by anything but conditions. -/
def conditionMistake? (tree : Tree α) (id : Nat) : Option (Malformed.Cause α) :=
  let above := tree.ancestors id
  if tree.amongItems id && !above.any (tree.isKind NodeKind.isAlternative) &&
      (id :: above).all tree.atTail then none
  else some .misplacedCondition

/-- What is wrong with a node by itself, with the node to report. -/
def mistakeAt? [BEq α] (tree : Tree α) (id : Nat) : Option (Nat × Malformed.Cause α) :=
  let here := Option.map fun cause => (id, cause)
  let operands := tree.children id
  let boundInside (operator : String) : Option (Nat × Malformed.Cause α) :=
    (tree.binders id).head?.map fun (binder, name) =>
      (binder, .bindingInAlternative name operator)
  match tree.kind? id with
  | some (.repetition _ _) => here (tree.repetitionMistake? id)
  | some .sequence =>
    if !tree.amongItems id then some (id, .misplacedSequence)
    else if operands.isEmpty then some (id, .emptySequence)
    else none
  | some .and => if operands.isEmpty then some (id, .emptyComposite "And") else none
  | some .or =>
    if operands.isEmpty then some (id, .emptyComposite "Or") else boundInside "Or"
  | some .not =>
    if operands.isEmpty then some (id, .emptyComposite "Not")
    else if 1 < operands.length then some (id, .notArity operands.length)
    else boundInside "Not"
  | some (.keyed shape keys) => here (keyMistake? shape keys)
  | some (.condition _) => here (tree.conditionMistake? id)
  | _ => none

def nameMistake? (tree : Tree α) (options : Options) (seen : List String) (id : Nat) :
    Option (Nat × Malformed.Cause α) :=
  match tree.kind? id, options.repeatedNames with
  | some (.bind name), .rejected =>
    if seen.contains name then some (id, .duplicateVariable name) else none
  | _, _ => none

def seenAfter (tree : Tree α) (seen : List String) (id : Nat) : List String :=
  match tree.kind? id with
  | some (.bind name) => name :: seen
  | _ => seen

def firstMistake? [BEq α] (tree : Tree α) (options : Options) :
    (seen : List String) → List Nat → Option (Nat × Malformed.Cause α)
  | _, [] => none
  | seen, id :: ids =>
    match tree.mistakeAt? id with
    | some mistake => some mistake
    | none =>
      match tree.nameMistake? options seen id with
      | some mistake => some mistake
      | none => firstMistake? tree options (tree.seenAfter seen id) ids

def malformed? [BEq α] (tree : Tree α) (options : Options) : Option (Malformed α) :=
  (tree.firstMistake? options [] tree.ids).map fun (id, cause) => ⟨tree.path id, cause⟩

end Destructure.Tree
