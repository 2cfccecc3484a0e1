import Destructure.Number.Binary64

/-!
Complex numbers in rectangular form.
-/

namespace Destructure.Number

structure ComplexNumber where
  real : Binary64
  imaginary : Binary64
  deriving DecidableEq

namespace ComplexNumber

def equals (first second : ComplexNumber) : Bool :=
  first.real.equals second.real && first.imaginary.equals second.imaginary

end ComplexNumber

end Destructure.Number
