import Destructure.Number.Shortest
import Destructure.Text.Quoted
import Destructure.Value.Basic

/-!
The text of a value. Values that can be written as literals are printed as such; fractions,
complex numbers and application objects have a text but no literal.
-/

namespace Destructure

variable {α : Type}

namespace Foreign

def label [Foreign α] (object : α) : String := "##ATOM[" ++ describe object ++ "]##"

end Foreign

namespace Value

def pairText (key separator content : List Char) : List Char := key ++ separator ++ content

mutual
def render [Foreign α] : Value α → List Char
  | .nil => ['n', 'i', 'l']
  | .bool true => ['t', 'r', 'u', 'e']
  | .bool false => ['f', 'a', 'l', 's', 'e']
  | .int number => Text.digitsOfInt number.toInt
  | .float number => number.text
  | .string text => Text.quoteText text.toList
  | .symbol name => ':' :: name.toList
  | .list items => '[' :: Text.commaSeparated (renderItems items) ++ [']']
  | .map entries => '\x7b' :: Text.commaSeparated (renderEntries entries) ++ ['\x7d']
  | .record tag fields =>
    tag.toList ++ '\x7b' :: Text.commaSeparated (renderFields fields) ++ ['\x7d']
  | .rational fraction =>
    '(' :: Text.digitsOfInt fraction.numerator.toInt ++
      '/' :: Text.digitsOfInt fraction.denominator.toInt ++ [')']
  | .complex number => '(' :: number.real.text ++ number.imaginary.signedText ++ ['i', ')']
  | .foreign object =>
    '#' :: '<' :: (Foreign.typeName object).toList ++
      ' ' :: (Foreign.describe object).toList ++ ['>']

def renderItems [Foreign α] : List (Value α) → List (List Char)
  | [] => []
  | item :: items => item.render :: renderItems items

def renderEntries [Foreign α] : List (Value α × Value α) → List (List Char)
  | [] => []
  | (key, content) :: entries =>
    pairText key.render [' ', '=', '>', ' '] content.render :: renderEntries entries

def renderFields [Foreign α] : List (String × Value α) → List (List Char)
  | [] => []
  | (name, content) :: fields =>
    pairText name.toList [':', ' '] content.render :: renderFields fields
end

def text [Foreign α] (value : Value α) : String := String.ofList value.render

end Value

end Destructure
