import Destructure.Number.Binary64
import Destructure.Text.Character

/-!
Decimal numerals: digits with an optional point and an optional exponent of ten. A numeral stands
for the nearest double precision number. The free form, which also knows infinities and NaN, is
the one in which parts of numbers are handed over as text.
-/

namespace Destructure.Number

structure Numeral where
  negative : Bool
  whole : List Char
  fraction : List Char
  exponent : Int

namespace Numeral

def toBinary64 (numeral : Numeral) : Binary64 :=
  Binary64.ofDecimal numeral.negative (Text.natOfDigits (numeral.whole ++ numeral.fraction))
    (numeral.exponent - numeral.fraction.length)

def splitSign : List Char → Bool × List Char
  | '-' :: rest => (true, rest)
  | '+' :: rest => (false, rest)
  | text => (false, text)

def readExponent? : List Char → Option Int
  | [] => some 0
  | mark :: rest =>
    let (negative, digits) := splitSign rest
    if (mark == 'e' || mark == 'E') && !digits.isEmpty && digits.all Text.isDigit then
      let exponent : Int := Text.natOfDigits digits
      some (if negative then -exponent else exponent)
    else
      none

def readUnsigned? (negative : Bool) (text : List Char) : Option Numeral :=
  let whole := text.takeWhile Text.isDigit
  let rest := text.dropWhile Text.isDigit
  let fraction := match rest with
    | '.' :: behind => behind.takeWhile Text.isDigit
    | _ => []
  let rest := match rest with
    | '.' :: behind => behind.dropWhile Text.isDigit
    | _ => rest
  if whole.isEmpty && fraction.isEmpty then none
  else (readExponent? rest).map fun exponent => ⟨negative, whole, fraction, exponent⟩

end Numeral

inductive FreeNumber where
  | number (value : Binary64)
  | notANumber

namespace FreeNumber

def read? (text : List Char) : Option FreeNumber :=
  let (negative, magnitude) := Numeral.splitSign text
  let lower := magnitude.map Char.toLower
  if lower = ['i', 'n', 'f'] ∨ lower = ['i', 'n', 'f', 'i', 'n', 'i', 't', 'y'] then
    some (.number (.infinite negative))
  else if lower = ['n', 'a', 'n'] then
    some .notANumber
  else
    (Numeral.readUnsigned? negative magnitude).map fun numeral => .number numeral.toBinary64

end FreeNumber

end Destructure.Number
