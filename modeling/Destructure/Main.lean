import Destructure.CommandLine

/-!
The program itself: it runs for its arguments, writes what comes of it and exits.
-/

namespace Destructure.CommandLine

def main [Regex.Engine] (arguments : Arguments) : IO UInt32 := do
  let outcome := runWith arguments
  IO.print outcome.output
  IO.eprint outcome.errors
  return outcome.code.toUInt32

end Destructure.CommandLine
