/-!
# Log records

What the parts of the program report about their work, for whoever listens at that level.
-/

namespace Reckoner

inductive Level where
  | debug | info | warning | error | critical
deriving DecidableEq

namespace Level

def all : List Level := [debug, info, warning, error, critical]

def name : Level → String
  | debug => "DEBUG"
  | info => "INFO"
  | warning => "WARNING"
  | error => "ERROR"
  | critical => "CRITICAL"

/-- Urgency: a listener hears what is at least as urgent as its threshold. -/
def rank : Level → Nat
  | debug => 10
  | info => 20
  | warning => 30
  | error => 40
  | critical => 50

end Level

/-- What a name that is set as the level of the log stands for. Beside the levels, the log gives
names to its line format and to its table of line styles, and those are no thresholds. -/
inductive LogName where
  | threshold (rank : Nat)
  | lineFormat
  | lineStyles
deriving DecidableEq

/-- The meaning of a name; one that is not known stands for warnings. -/
def LogName.ofString (name : String) : LogName :=
  match name with
  | "NOTSET" => .threshold 0
  | "DEBUG" => .threshold Level.debug.rank
  | "INFO" => .threshold Level.info.rank
  | "WARNING" | "WARN" => .threshold Level.warning.rank
  | "ERROR" => .threshold Level.error.rank
  | "CRITICAL" | "FATAL" => .threshold Level.critical.rank
  | "BASIC_FORMAT" => .lineFormat
  | "_STYLES" => .lineStyles
  | _ => .threshold Level.warning.rank

/-- One report: which part of the program made it, how urgent it is and what it says. -/
structure Record where
  logger : String
  level : Level
  message : String
deriving DecidableEq

/-- The line that shows a record. -/
def Record.line (record : Record) : String :=
  "[" ++ record.level.name ++ "] " ++ record.logger ++ ": " ++ record.message

end Reckoner
