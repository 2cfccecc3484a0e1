import Destructure.Pattern.Basic

/-!
The text of a pattern. Operators are written as calls, so no brackets are needed for precedence;
conditions have no written form and are only hinted at.
-/

namespace Destructure

variable {α : Type}

namespace Shape

def render : Shape → List Char
  | named name | record name => name.toList
  | regex expression => expression.render

end Shape

namespace Pattern

def call (name : List Char) (items : List (List Char)) : List Char :=
  name ++ '(' :: Text.commaSeparated items ++ [')']

def renderRepetition (minimum : Nat) (greed : Option Greed) : List Char :=
  '.' :: '.' :: (if minimum = 0 then [] else Text.digitsOfNat minimum) ++
    if greed = some .lazy then ['?'] else []

def renderKey [Foreign α] (shape : KeyedShape) (key : Value α) : List Char :=
  match shape with
  | .map => key.render ++ [' ', '=', '>', ' ']
  | .record _ => (key.text?.getD "?").toList ++ [':', ' ']

def isBare : Value α → Pattern α → Bool
  | .symbol key, bind name => key == name
  | _, _ => false

mutual
def render [Foreign α] : Pattern α → List Char
  | literal value => value.render
  | compared value _ => '~' :: value.render
  | kind category => category.name.toList
  | bind name => name.toList
  | wildcard => ['_']
  | deconstruct shape items =>
    if shape = .named listShape then '[' :: Text.commaSeparated (renderAll items) ++ [']']
    else call shape.render (renderAll items)
  | keyed shape entries =>
    (match shape with
      | .map => []
      | .record tag => tag.toList) ++
    '\x7b' :: Text.commaSeparated (renderEntries shape entries) ++ ['\x7d']
  | repetition minimum greed => renderRepetition minimum greed
  | sequence items => call ['S', 'e', 'q'] (renderAll items)
  | and operands => call ['A', 'n', 'd'] (renderAll operands)
  | or operands => call ['O', 'r'] (renderAll operands)
  | not operands => call ['N', 'o', 't'] (renderAll operands)
  | condition _ => ['<', 'c', 'o', 'n', 'd', '>']
termination_by structural pattern => pattern

def renderAll [Foreign α] : List (Pattern α) → List (List Char)
  | [] => []
  | pattern :: patterns => render pattern :: renderAll patterns
termination_by structural patterns => patterns

def renderEntries [Foreign α] (shape : KeyedShape) :
    List (Value α × Pattern α) → List (List Char)
  | [] => []
  | (key, pattern) :: entries =>
    (if isBare key pattern then key.render else renderKey shape key ++ render pattern) ::
      renderEntries shape entries
termination_by structural entries => entries
end

def text [Foreign α] (pattern : Pattern α) : String := String.ofList pattern.render

end Pattern

end Destructure
