import Destructure.Number.Shortest
import Destructure.Text.Quoted

/-!
The units that the text of patterns and values is made of, and how messages show them.
-/

namespace Destructure

inductive Bracket where
  | round
  | square
  | curly
  deriving DecidableEq

namespace Bracket

def opening : Bracket → Char
  | round => '('
  | square => '['
  | curly => '\x7b'

def closing : Bracket → Char
  | round => ')'
  | square => ']'
  | curly => '\x7d'

end Bracket

inductive Lexeme where
  | opening (bracket : Bracket)
  | closing (bracket : Bracket)
  | comma
  | bar
  | ampersand
  | bang
  | arrow
  /-- A colon that does not start a symbol. -/
  | colon
  | name (text : String)
  | symbol (text : String)
  | int (number : Int64)
  | float (number : Number.Binary64)
  | string (text : String)
  | regex (source : String)
  | repetition (minimum : Nat) (lazy : Bool)
  deriving DecidableEq

namespace Lexeme

def render : Lexeme → List Char
  | opening bracket => [bracket.opening]
  | closing bracket => [bracket.closing]
  | comma => [',']
  | bar => ['|']
  | ampersand => ['&']
  | bang => ['!']
  | arrow => ['=', '>']
  | colon => [':']
  | name text => text.toList
  | symbol text => ':' :: text.toList
  | int number => Text.digitsOfInt number.toInt
  | float number => number.text
  | string text => Text.quoteMessage text.toList
  | regex source => '/' :: source.toList ++ ['/']
  | repetition minimum lazy =>
    '.' :: '.' :: Text.digitsOfNat minimum ++ if lazy then ['?'] else []

end Lexeme

structure Token where
  lexeme : Lexeme
  position : Nat
  deriving DecidableEq

end Destructure
