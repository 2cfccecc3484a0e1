import Destructure.Text.Alphabetic
import Destructure.Text.Blank
import Destructure.Text.DecimalDigit
import Destructure.Text.GraphemeExtend
import Destructure.Text.Numeric
import Destructure.Text.Unprintable
import Destructure.Text.WordCharacter

/-!
The classes of characters that the text forms of values, patterns and regular expressions are
built from.
-/

namespace Destructure.Text

def isAlphabetic (character : Char) : Bool := alphabeticRanges.contains character.toNat

def isNumeric (character : Char) : Bool := numericRanges.contains character.toNat

def isAlphanumeric (character : Char) : Bool := isAlphabetic character || isNumeric character

def isBlank (character : Char) : Bool := blankRanges.contains character.toNat

def isGraphemeExtend (character : Char) : Bool := graphemeExtendRanges.contains character.toNat

def isPrintable (character : Char) : Bool := !unprintableRanges.contains character.toNat

def isWordCharacter (character : Char) : Bool := wordRanges.contains character.toNat

def isDecimalDigit (character : Char) : Bool := decimalDigitRanges.contains character.toNat

def isDigit (character : Char) : Bool := '0' ≤ character && character ≤ '9'

/-! Names of variables, tags and symbols. -/

def startsName (character : Char) : Bool := isAlphabetic character || character == '_'

def continuesName (character : Char) : Bool := isAlphanumeric character || character == '_'

def natOfDigits (digits : List Char) : Nat :=
  digits.foldl (fun number digit => 10 * number + (digit.toNat - 48)) 0

def digitsOfNat (number : Nat) : List Char := Nat.toDigits 10 number

def digitsOfInt (number : Int) : List Char :=
  if number < 0 then '-' :: digitsOfNat number.natAbs else digitsOfNat number.natAbs

def commaSeparated (texts : List (List Char)) : List Char := List.intercalate [',', ' '] texts

def byteLength : List Char → Nat
  | [] => 0
  | character :: rest => character.utf8Size + byteLength rest

end Destructure.Text
