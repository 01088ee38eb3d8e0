import Reckoner.Terminal.Arguments
import Reckoner.Terminal.Console
/-!
# The interface of a terminal

The arguments and the console of a terminal, on a machine whose calls may lie a thousand deep inside
each other.
-/

namespace Reckoner.Terminal

/-- The calls that are left where a file is read. -/
def room : Nat := 960

def interface (manual : CommandLine.Manual) (explain : Text → String) : CommandLine.Interface where
  manual := manual
  understand := understand
  console := console
  host := ⟨room, explain⟩

end Reckoner.Terminal
