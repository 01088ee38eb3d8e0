import Reckoner.CommandLine.Run
import Reckoner.Terminal.Interface
/-!
# The program

Takes the arguments, a snapshot of the files that matter and the environment, runs the calculator on
them, and writes what the run reports.
-/

namespace Reckoner

def manual : CommandLine.Manual where
  usage := "Usage: astcalc [OPTIONS] EXPRESSION\nTry 'astcalc --help' for help.\n"
  help :=
    "Usage: astcalc [OPTIONS] EXPRESSION\n\n"
    ++ "Evaluate arithmetic and trigonometric expressions (angles in degrees).\n\n"
    ++ "  --strict / --permissive  Reject input left over after the expression\n"
    ++ "  -p, --precision N        Decimal places to show in the result\n"
    ++ "  -c, --config PATH        Path to astcalc.toml (default: nearest one, if any)\n"
    ++ "  -v, --verbose            Enable debug logging\n"
    ++ "  --version                Show version and exit\n"
    ++ "  --help                   Show this message and exit\n"

/-- The words for a text that does not have the form of a configuration file. -/
def explainForm (_ : Text) : String := "not in the form of a configuration file"

/-- The reason that the system gives for an error. -/
def readError : IO.Error → ReadError
  | .noFileOrDirectory .. => .notFound
  | error => .other (toString error)

/-- What stands at a place of the disk. Only what is to be opened is read. -/
def diskEntry (opened : Bool) (place : List String) : IO Entry := do
  let path := (← IO.currentDir) / ("/" ++ "/".intercalate place)
  let content : IO (Except ReadError ByteArray) := do
    try return .ok (← IO.FS.readBinFile path) catch error => return .error (readError error)
  try
    match (← path.metadata).type with
    | .dir => return .directory
    | .file => return .file (← content)
    | _ => return .special (← if opened then content else pure (.ok .empty))
  catch
    | .noFileOrDirectory .. | .inappropriateType .. => return .missing
    | error => return .hidden (readError error)

/-- The disk, as far as it concerns the places a path passes and the files a search looks for. -/
def diskSnapshot (path : Option Path) : IO FileSystem := do
  let current := (Path.ofString (← IO.currentDir).toString).parts
  let blank : FileSystem := ⟨fun _ => .missing, "", true, current⟩
  let candidates := (FileSystem.ancestors current).map (· ++ [Settings.fileName])
  let passed := path.elim [] fun p =>
    (List.range (p.parts.length + 1)).filterMap fun n =>
      blank.resolve ⟨p.anchor, p.parts.take n⟩
  let given := path.bind blank.resolve
  let entries ← (candidates ++ passed).mapM fun place =>
    return (place, ← diskEntry (given == some place) place)
  return { blank with entry := fun place => (entries.lookup place).getD .missing }

/-- The message that a run breaks off with. -/
def CommandLine.Crash.message : CommandLine.Crash → String
  | undecodable => "The config file is not UTF-8 text"
  | oversizedNumeral => "The config file holds a numeral that is too long"
  | settingsTooDeep => "The config file nests values too deeply"
  | unusablePath => "The config path cannot name a file"
  | formatAsLevel => "The log level names the line format"
  | stylesAsLevel => "The log level names the line styles"
  | treeTooDeep => EvalError.nestedTooDeeply.message
  | missingArgument => EvalError.missingArgument.message
  | undefinedValue => EvalError.undefinedValue.message
  | tooManyPlaces => "Too many decimal places"
  | unsearchable reason => "The search for the config file was refused: " ++ reason.text ""

end Reckoner

open Reckoner in
def main (args : List String) : IO UInt32 := do
  let args := args.map String.toList
  let terminal := Terminal.interface manual explainForm
  let config := match terminal.understand args with
    | .run command => command.config
    | _ => none
  let fs ← diskSnapshot config
  let environment ← IO.getEnv "LOG_LEVEL"
  match CommandLine.run terminal fs environment args CommandLine.parseLogged with
  | .ok report =>
    IO.print report.output
    IO.eprint report.errors
    return report.exit.toUInt32
  | .error crash =>
    IO.eprintln crash.message
    return 1
