import Reckoner.CommandLine.Command
import Reckoner.Evaluation
import Reckoner.Version
/-!
# A run of the program

The run reads the settings, parses the expression, shows it as it was understood, and shows its
value. Each of these can end the run with a line of explanation. Log records of sufficient urgency
go between the lines of explanation, in the order of events.
-/

namespace Reckoner.CommandLine

/-- What a run leaves behind. -/
structure Report where
  exit : Nat
  output : String
  errors : String

/-- What a run breaks off with, instead of explaining itself: settings that are not text, with a
numeral too long to convert, nested too deeply or under an impossible path; a level of the log that
is no level; a tree that is too deep to be shown, or with a missing argument; a result with too many
places; a search for settings that was refused. -/
inductive Crash where
  | undecodable
  | oversizedNumeral
  | settingsTooDeep
  | unusablePath
  | formatAsLevel
  | stylesAsLevel
  | treeTooDeep
  | missingArgument
  | undefinedValue
  | tooManyPlaces
  | unsearchable (reason : ReadError)
deriving DecidableEq

/-- The records that are urgent enough, one to a line. -/
def logLines (threshold : Nat) (records : List Record) : String :=
  String.join ((records.filter (threshold ≤ ·.level.rank)).map fun record => record.line ++ "\n")

/-- The urgency from which on records are shown. -/
def thresholdFor (settings : Settings) (verbose : Bool) : Except Crash Nat :=
  match LogName.ofString (if verbose then "DEBUG" else settings.logLevel) with
  | .threshold rank => pure rank
  | .lineFormat => throw .formatAsLevel
  | .lineStyles => throw .stylesAsLevel

/-- Parsing, with what it logs. -/
structure Parsed where
  outcome : Outcome Subject
  records : List Record

def parseLogged (strict : Bool) (source : Text) : Parsed :=
  let reading := Grammar.read strict source
  ⟨(reading.outcome source).map .expression, [reading.record source]⟩

def trailingRecords (rest : Text) : List Record :=
  if rest.isEmpty then []
  else [⟨"astcalc.cli", .info, "Ignoring trailing input " ++ Text.quoted rest⟩]

/-- The errors of evaluation that are explained; a missing argument is not. -/
def crashOf? : EvalError → Option Crash
  | .missingArgument => some .missingArgument
  | .undefinedValue => some .undefinedValue
  | _ => none

/-- The line that shows what was understood. -/
def expressionLine (console : Console) (settings : Settings) (subject : Subject) :
    Except Crash String :=
  if settings.showExpression then
    match subject.render? with
    | some text => pure (console.line "Expression: " text)
    | none => throw .treeTooDeep
  else pure ""

/-- Shows what was understood and its value. A number has no markup and is printed as it is. -/
def showValue (console : Console) (settings : Settings) (command : Command) (threshold : Nat)
    (subject : Subject) (log : List Record) : Except Crash Report := do
  let shown ← expressionLine console settings subject
  let value := Evaluation.evaluateSubject subject
  let logged := logLines threshold (log ++ Evaluation.subjectRecords subject)
  match value with
  | .ok value =>
    match value.shown? (command.precision <|> settings.precision) with
    | some text => return ⟨0, shown ++ console.print ("Result: " ++ String.ofList text), logged⟩
    | none => throw .tooManyPlaces
  | .error error =>
    match crashOf? error with
    | some crash => throw crash
    | none =>
      return ⟨2, shown, logged ++ console.line "Error evaluating expression: " error.message⟩

/-- The run once there are settings. -/
def runWith (console : Console) (settings : Settings) (command : Command)
    (parse : Bool → Text → Parsed) : Except Crash Report := do
  let threshold ← thresholdFor settings command.verbose
  let parsed := parse (command.strict.getD settings.strict) command.expression
  match parsed.outcome with
  | .success subject rest =>
    showValue console settings command threshold subject (parsed.records ++ trailingRecords rest)
  | .failure failure =>
    let detail := if command.verbose then failure.describe else failure.message
    let logged := logLines threshold parsed.records
    return ⟨1, "", logged ++ console.line "Error parsing expression: " detail⟩

/-- The run of a command. -/
def runCommand (interface : Interface) (fs : FileSystem) (environment : Option String)
    (command : Command) (parse : Bool → Text → Parsed) : Except Crash Report :=
  match Settings.resolve interface.host fs environment command.config with
  | .ok settings => runWith interface.console settings command parse
  | .error (.config error) => pure ⟨1, "", interface.console.line "Error: " error.message⟩
  | .error .undecodable => throw .undecodable
  | .error .oversizedNumeral => throw .oversizedNumeral
  | .error .nestedTooDeeply => throw .settingsTooDeep
  | .error .unusablePath => throw .unusablePath
  | .error (.unsearchable reason) => throw (.unsearchable reason)

/-- A run of the program on its arguments. -/
def run (interface : Interface) (fs : FileSystem) (environment : Option String) (args : List Text)
    (parse : Bool → Text → Parsed) : Except Crash Report :=
  match interface.understand args with
  | .usageError => pure ⟨2, "", interface.manual.usage⟩
  | .help => pure ⟨0, interface.manual.help, ""⟩
  | .version => pure ⟨0, "astcalc version " ++ Release.current ++ "\n", ""⟩
  | .run command => runCommand interface fs environment command parse

end Reckoner.CommandLine
