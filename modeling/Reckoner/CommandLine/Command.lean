import Reckoner.Settings
/-!
# Commands and what they are given through

Arguments are understood and lines are printed by other programs than this one, and the use of the
program is explained in texts that they write. What a run takes from them is an interface, which is
left open here.
-/

namespace Reckoner.CommandLine

/-- What the program is asked to calculate, and how. -/
structure Command where
  expression : Text
  strict : Option Bool
  precision : Option Nat
  config : Option Path
  verbose : Bool

/-- What the arguments come to. -/
inductive Invocation where
  | usageError
  | help
  | version
  | run (command : Command)

/-- The texts that explain the use of the program. -/
structure Manual where
  usage : String
  help : String

/-- A console that understands markup, so text that is to be shown as it is has to be escaped. -/
structure Console where
  escape : String → String
  /-- What appears when a text with markup is printed, with the end of the line. -/
  print : String → String

/-- The line that shows a text after a label. -/
def Console.line (console : Console) (label text : String) : String :=
  console.print (label ++ console.escape text)

/-- Everything around the program that a run makes use of. -/
structure Interface where
  manual : Manual
  understand : List Text → Invocation
  console : Console
  host : Host

end Reckoner.CommandLine
