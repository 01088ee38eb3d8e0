import Reckoner.Expression.Basic
import Reckoner.Files.FileSystem
import Reckoner.Journal
import Reckoner.Text.UpperCase
import Reckoner.Toml.Reader
/-!
# Settings

The settings come from the `calculator` table of a configuration file. What the table leaves out
keeps its default; what it should not contain, or contains in the wrong form, is an error, and of
several errors the first in a fixed order is reported.
-/

namespace Reckoner

structure Settings where
  /-- Whether text after the expression is an error. -/
  strict : Bool := false
  /-- The number of places of results; all digits if none is given. -/
  precision : Option Nat := none
  showExpression : Bool := true
  logLevel : String

/-- What is wrong with a configuration file. -/
inductive ConfigError where
  | unreadable (path : String) (reason : ReadError)
  | invalid (path : String) (reason : String)
  | notATable (path : String)
  | unknownKeys (path : String) (keys : List String)
  | notABoolean (key : String) (value : Toml.Value)
  | badPrecision (value : Toml.Value)
  | badLogLevel (value : Toml.Value)

/-- Why there are no settings: an error in the file, or one that stops the program: bytes that are
no text, a numeral that is too long to convert, values inside too many others, a path that cannot
name a file, a search that was refused. -/
inductive LoadError where
  | config (error : ConfigError)
  | undecodable
  | oversizedNumeral
  | nestedTooDeeply
  | unusablePath
  | unsearchable (reason : ReadError)

/-- What reading a file takes from the machine it runs on. -/
structure Host where
  /-- How many calls may lie inside each other from where a file is read. -/
  room : Nat
  /-- The words for what is wrong with a text that does not have the form of a file. -/
  explain : Text → String

/-- How far the reading of a file may go on a machine. -/
def Host.limits (host : Host) : Toml.Limits := ⟨Text.maxNumeralDigits, host.room⟩

namespace ConfigError

def message : ConfigError → String
  | unreadable path reason => "Cannot read config file " ++ path ++ ": " ++ reason.text path
  | invalid path reason => "Invalid TOML in " ++ path ++ ": " ++ reason
  | notATable path => "[calculator] in " ++ path ++ " must be a table"
  | unknownKeys path keys =>
    "Unknown keys in [calculator] of " ++ path ++ ": " ++ ", ".intercalate keys
  | notABoolean key value =>
    "calculator." ++ key ++ " must be true or false, got " ++ String.ofList value.text
  | badPrecision value =>
    "calculator.precision must be a non-negative integer, got " ++ String.ofList value.text
  | badLogLevel value =>
    "calculator.log_level must be one of "
      ++ ", ".intercalate (sortedNames (Level.all.map Level.name))
      ++ ", got " ++ String.ofList value.text

/-- Whether the message can be written. -/
def isShowable : ConfigError → Bool
  | notABoolean _ value | badPrecision value | badLogLevel value => value.isShowable
  | _ => true

end ConfigError

/-- An error in the file, unless to explain it would take a numeral that is too long. -/
def LoadError.ofConfig (error : ConfigError) : LoadError :=
  if error.isShowable then .config error else .oversizedNumeral

namespace Settings

/-! ### The table -/

def defaultLevel : String := "WARNING"

/-- The settings without a file. The level comes from the environment, as it stands but for case. -/
def default (environment : Option String) : Settings where
  logLevel := String.ofList (Text.toUpper (environment.getD defaultLevel).toList)

def knownKeys : List Text :=
  ["strict".toList, "precision".toList, "show_expression".toList, "log_level".toList]

def unknownKeys (table : Toml.Table) : List String :=
  sortedNames (((table.map (·.1)).filter (!knownKeys.contains ·)).map String.ofList)

/-- A truth value that the table may give. -/
def readBoolean (table : Toml.Table) (key : String) (absent : Bool) : Except ConfigError Bool :=
  match table.lookup key.toList with
  | none => pure absent
  | some (.boolean b) => pure b
  | some value => throw (.notABoolean key value)

def readPrecision (table : Toml.Table) (absent : Option Nat) : Except ConfigError (Option Nat) :=
  match table.lookup "precision".toList with
  | none => pure absent
  | some (.integer (.ofNat n)) => pure (some n)
  | some value => throw (.badPrecision value)

def readLogLevel (table : Toml.Table) (absent : String) : Except ConfigError String :=
  match table.lookup "log_level".toList with
  | none => pure absent
  | some (.string text) =>
    let name := String.ofList (Text.toUpper text)
    if (Level.all.map Level.name).contains name then pure name
    else throw (.badLogLevel (.string text))
  | some value => throw (.badLogLevel value)

/-- The settings that a table gives, in place of the defaults. -/
def ofTable (path : String) (defaults : Settings) (table : Toml.Table) :
    Except ConfigError Settings := do
  let unknown := unknownKeys table
  unless unknown.isEmpty do throw (.unknownKeys path unknown)
  let strict ← readBoolean table "strict" defaults.strict
  let showExpression ← readBoolean table "show_expression" defaults.showExpression
  let precision ← readPrecision table defaults.precision
  let logLevel ← readLogLevel table defaults.logLevel
  return { strict, precision, showExpression, logLevel }

/-! ### The file -/

/-- The text with every line end as a single newline. -/
def unifyNewlines : Text → Text
  | '\r' :: '\n' :: rest => '\n' :: unifyNewlines rest
  | '\r' :: rest => '\n' :: unifyNewlines rest
  | c :: rest => c :: unifyNewlines rest
  | [] => []

def ofDocument (path : String) (defaults : Settings) (document : Toml.Table) :
    Except ConfigError Settings :=
  match document.lookup "calculator".toList with
  | none => ofTable path defaults []
  | some (.table table) => ofTable path defaults table
  | some _ => throw (.notATable path)

/-- The settings in a file, given what opening and reading it came to. -/
def load (host : Host) (path : String) (defaults : Settings)
    (content : Except ReadError ByteArray) : Except LoadError Settings := do
  match content with
  | .error reason => throw (.config (.unreadable path reason))
  | .ok bytes =>
    match String.fromUTF8? bytes with
    | none => throw .undecodable
    | some encoded =>
      let text := unifyNewlines encoded.toList
      match Toml.read host.limits text with
      | .error .malformed => throw (.config (.invalid path (host.explain text)))
      | .error .oversized => throw .oversizedNumeral
      | .error .tooDeep => throw .nestedTooDeeply
      | .ok document => (ofDocument path defaults document).mapError .ofConfig

def fileName : String := "astcalc.toml"

/-- Where the settings come from: a path that was given, the nearest file of the usual name, or
nowhere. The search for that file can also be refused. -/
inductive Origin where
  | given (path : Path)
  | found (place : List String)
  | nowhere
  | refused (reason : ReadError)

def origin (fs : FileSystem) : Option Path → Origin
  | some path => .given path
  | none =>
    match fs.findUpwards fileName fs.current with
    | .ok (some place) => .found place
    | .ok none => .nowhere
    | .error reason => .refused reason

/-- The settings from a given path, the nearest file or the defaults. -/
def resolve (host : Host) (fs : FileSystem) (environment : Option String) (path : Option Path) :
    Except LoadError Settings :=
  match origin fs path with
  | .given path =>
    if path.isUsable then load host path.text (default environment) (fs.read path)
    else throw .unusablePath
  | .found place => load host (fs.absoluteText place) (default environment) (fs.readAt place)
  | .nowhere => pure (default environment)
  | .refused reason => throw (.unsearchable reason)

/-- The path that messages show for an origin. -/
def Origin.path? (fs : FileSystem) : Origin → Option String
  | given path => some path.text
  | found place => some (fs.absoluteText place)
  | nowhere | refused _ => none

/-! ### The log -/

def shownBoolean (b : Bool) : String := if b then "True" else "False"

def text (settings : Settings) : String :=
  "CalculatorConfig(strict=" ++ shownBoolean settings.strict
    ++ ", precision=" ++ (settings.precision.map (String.ofList ∘ Text.ofNat)).getD "None"
    ++ ", show_expression=" ++ shownBoolean settings.showExpression
    ++ ", log_level=" ++ Text.quoted settings.logLevel.toList ++ ")"

/-- What the log says of settings that were loaded. -/
def records (host : Host) (fs : FileSystem) (environment : Option String) (path : Option Path) :
    List Record :=
  match (origin fs path).path? fs, resolve host fs environment path with
  | some shown, .ok settings =>
    [⟨"astcalc.core.config", .debug, "Loaded config from " ++ shown ++ ": " ++ settings.text⟩]
  | _, _ => []

end Settings

end Reckoner
