/-!
# Paths

A path is shown in a tidy form: without empty or `.` parts and without a slash at its end. Parts
that lead upwards stay, since only a walk can tell where they lead.
-/

namespace Reckoner

/-- A path from the top, when it has an anchor of slashes, or from the working directory. -/
structure Path where
  anchor : String
  parts : List String
deriving DecidableEq

namespace Path

/-- The slashes at the front of a path: two are kept, more count as one. -/
def anchorOf (text : String) : String :=
  match text.toList with
  | '/' :: '/' :: '/' :: _ => "/"
  | '/' :: '/' :: _ => "//"
  | '/' :: _ => "/"
  | _ => ""

def ofString (text : String) : Path :=
  ⟨anchorOf text, (text.splitOn "/").filter fun part => part != "" && part != "."⟩

/-- The path as messages show it. -/
def text (path : Path) : String :=
  if path.anchor == "" && path.parts.isEmpty then "."
  else path.anchor ++ "/".intercalate path.parts

/-- Whether the path can name anything; no name holds the zero character. -/
def isUsable (path : Path) : Bool :=
  path.parts.all fun part => !part.toList.contains '\x00'

end Path

end Reckoner
