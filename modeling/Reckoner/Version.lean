/-!
# The version

A calculator that has been installed knows its version from its installation. One that runs from its
source tree finds it declared there.
-/

namespace Reckoner

/-- Where the version may be found. -/
structure Release where
  installed : Option String
  declared : Option String

namespace Release

def current : String := "0.3.0"

def version (release : Release) : String :=
  (release.installed <|> release.declared).getD "0.0.0"

end Release

end Reckoner
