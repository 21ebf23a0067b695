/-
# The command line

All that is done here is reading the arguments, the environment and the
input, and writing what `Program.runWith` or `Program.halted` makes of them.
-/
import Arith.Command.Program

open Arith

/-- Runs the program; the input is read only if the arguments hold no expression. -/
def main (arguments : List String) : IO UInt32 := do
  let logSpec ← IO.getEnv "RUST_LOG"
  let outcome ← match Options.ofArguments arguments with
    | .error halt => pure (Program.halted halt)
    | .ok options => do
      let input ←
        if options.expression.isSome then pure ByteArray.empty
        else (← IO.getStdin).readBinToEnd
      pure (Program.runWith options logSpec input)
  IO.eprint outcome.stderr
  IO.print outcome.stdout
  return UInt32.ofNat outcome.exit
