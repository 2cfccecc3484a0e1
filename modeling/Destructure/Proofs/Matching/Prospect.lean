import Destructure.Proofs.Matching.Trail
import Destructure.Proofs.Matching.Turns

/-!
The search without going back: all turns that an item or a row of items offers, given what the
slots hold. Nothing is taken back here, since every alternative starts from contents of its own,
and every repetition is offered count by count, whether or not its unit contains repetitions.
-/

namespace Destructure

structure Place (α : Type) where
  contents : Contents α
  left : List (Value α)

namespace Turns

variable {α : Type}

def eachValue (unit : Value α → Contents α → Turns α (Contents α)) :
    List (Value α) → Contents α → Turns α (Contents α)
  | [], contents => [.reached contents]
  | value :: values, contents => andThen (unit value contents) (eachValue unit values)

def passes (row : List (Value α) → Contents α → Turns α (Place α)) :
    Nat → List (Value α) → Contents α → Turns α (Place α)
  | 0, values, contents => [.reached ⟨contents, values⟩]
  | count + 1, values, contents =>
    andThen (row values contents) fun place => passes row count place.left place.contents

def exhausted (turns : Turns α (Place α)) : Turns α (Contents α) :=
  andThen turns fun place => if place.left.isEmpty then [.reached place.contents] else []

theorem explore_exhausted {β : Type} (goal : Contents α → Trial α β) (turns : Turns α (Place α)) :
    Trial.explore goal (exhausted turns) =
      Trial.explore
        (fun place => if place.left.isEmpty then goal place.contents else .failure) turns := by
  rw [exhausted, Trial.explore_andThen]
  congr 1
  funext place
  split <;> simp

def repeated (unit : (List (Value α) → Contents α → Turns α (Place α)) ⊕
      (Value α → Contents α → Turns α (Contents α)))
    (values : List (Value α)) (contents : Contents α) (count : Nat) : Turns α (Place α) :=
  match unit with
  | .inl row => passes row count values contents
  | .inr single => andThen (eachValue single (values.take count) contents)
      fun contents => [.reached ⟨contents, values.drop count⟩]

end Turns

namespace Matcher

variable {α : Type}

def openContents (matcher : Matcher α) (repetition : Nat) (contents : Contents α) : Contents α :=
  (matcher.openers.getD repetition []).foldl
    (fun contents (id, level) => contents.put id level (.repetitions [])) contents

def bindingsIn (matcher : Matcher α) (contents : Contents α) : Bindings α :=
  Slots.snapshot ⟨contents, #[], 0⟩ matcher.names

mutual
def rowTurns [BEq α] (matcher : Matcher α) :
    List (Outline α) → List (Value α) → Contents α → Turns α (Place α)
  | [], values, contents => [.reached ⟨contents, values⟩]
  | item :: .node repetition (.repetition minimum greed) _ :: items, values, contents =>
    let unit :=
      if item.kind.isSequence then .inl (partTurns matcher item)
      else .inr (itemTurns matcher item)
    let opened := matcher.openContents repetition contents
    Turns.andThen ((greed.counts minimum values.length).flatMap (Turns.repeated unit values opened))
      fun place => rowTurns matcher items place.left place.contents
  | item :: items, values, contents =>
    match item.kind with
    | .condition accepts =>
      if !values.isEmpty then []
      else
        let bindings := matcher.bindingsIn contents
        .asked ⟨.condition, bindings, accepts bindings⟩ ::
          if accepts bindings then rowTurns matcher items values contents else []
    | .repetition _ _ => []
    | .sequence =>
      Turns.andThen (partTurns matcher item values contents)
        fun place => rowTurns matcher items place.left place.contents
    | _ =>
      match values with
      | [] => []
      | value :: values =>
        Turns.andThen (itemTurns matcher item value contents) (rowTurns matcher items values)
termination_by structural items => items

def partTurns [BEq α] (matcher : Matcher α) :
    Outline α → List (Value α) → Contents α → Turns α (Place α)
  | .node _ _ children, values, contents => rowTurns matcher children values contents
termination_by structural item => item

def itemTurns [BEq α] (matcher : Matcher α) :
    Outline α → Value α → Contents α → Turns α (Contents α)
  | .node id kind children, value, contents =>
    match kind with
    | .test test => if test.accepts value then [.reached contents] else []
    | .wildcard => [.reached contents]
    | .bind _ => [.reached (contents.put id (matcher.depth id) (.scalar value))]
    | .deconstruct _ =>
      match (matcher.decomposer? id).bind fun decomposer => decomposer value with
      | none => []
      | some parts => Turns.exhausted (rowTurns matcher children parts contents)
    | .keyed shape keys =>
      match shape.lookup? keys value with
      | none => []
      | some parts => Turns.exhausted (rowTurns matcher children parts contents)
    | .and => allTurns matcher children value contents
    | .or => Turns.verdict true contents (anyTurns matcher children value contents)
    | .not => Turns.verdict false contents (anyTurns matcher children value contents)
    | .sequence | .repetition _ _ | .condition _ => []
termination_by structural item => item

def allTurns [BEq α] (matcher : Matcher α) :
    List (Outline α) → Value α → Contents α → Turns α (Contents α)
  | [], _, contents => [.reached contents]
  | item :: items, value, contents =>
    Turns.andThen (itemTurns matcher item value contents) (allTurns matcher items value)
termination_by structural items => items

def anyTurns [BEq α] (matcher : Matcher α) :
    List (Outline α) → Value α → Contents α → Turns α (Contents α)
  | [], _, _ => []
  | item :: items, value, contents =>
    itemTurns matcher item value contents ++ anyTurns matcher items value contents
termination_by structural items => items
end

end Matcher

end Destructure
