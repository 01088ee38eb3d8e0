import Reckoner.CommandLine.Command
import Reckoner.Terminal.Places
/-!
# Arguments of the command line

An expression may start with a dash, as in `-7%3`. So an argument that looks like an option but is
none is taken for the expression: a long one as a whole, a short one by the letters that are no
options.
-/

namespace Reckoner.Terminal

open CommandLine (Command Invocation)

/-- Options that carry a value. -/
inductive ValueOption where
  | precision | config
deriving DecidableEq

/-- Options that carry none. -/
inductive Flag where
  | strict | permissive | verbose | help | version
deriving DecidableEq

/-- What has been given so far; of an option with a value, the last one counts. -/
structure Given where
  strict : Option Bool := none
  precision : Option Text := none
  config : Option Text := none
  verbose : Bool := false
  /-- The first request for information, which overrides everything else. -/
  information : Option Flag := none
  positional : List Text := []

namespace Given

def setFlag (given : Given) : Flag → Given
  | .strict => { given with strict := some true }
  | .permissive => { given with strict := some false }
  | .verbose => { given with verbose := true }
  | .help => { given with information := given.information <|> some .help }
  | .version => { given with information := given.information <|> some .version }

def setValue (given : Given) (option : ValueOption) (value : Text) : Given :=
  match option with
  | .precision => { given with precision := some value }
  | .config => { given with config := some value }

def addPositional (given : Given) (value : Text) : Given :=
  { given with positional := given.positional ++ [value] }

end Given

def longFlag? (name : Text) : Option Flag :=
  match String.ofList name with
  | "--strict" => some .strict
  | "--permissive" => some .permissive
  | "--verbose" => some .verbose
  | "--help" => some .help
  | "--version" => some .version
  | _ => none

def longValue? (name : Text) : Option ValueOption :=
  match String.ofList name with
  | "--precision" => some .precision
  | "--config" => some .config
  | _ => none

/-- What one argument comes to: everything so far with it, and the option that takes its value from
the next argument. -/
abbrev Progress := Given × Option ValueOption

/-- The letters after a dash. `v` is a flag; `p` and `c` take what follows them as their value. The
others, with the dash, are an argument of their own. -/
def readLetters (given : Given) (others : Text) : Text → Progress
  | [] => (if others.isEmpty then given else given.addPositional ('-' :: others), none)
  | 'v' :: rest => readLetters (given.setFlag .verbose) others rest
  | 'p' :: rest => takeValue .precision rest
  | 'c' :: rest => takeValue .config rest
  | letter :: rest => readLetters given (others ++ [letter]) rest
where
  takeValue (option : ValueOption) (value : Text) : Progress :=
    let given := if others.isEmpty then given else given.addPositional ('-' :: others)
    if value.isEmpty then (given, some option) else (given.setValue option value, none)

/-- An argument of more than one character that starts with a dash; `none` is a usage error. -/
def readDashed (given : Given) (arg : Text) : Option Progress :=
  let name := arg.takeWhile (· != '=')
  let value := (arg.dropWhile (· != '=')).tail?
  match longFlag? name, longValue? name with
  | some flag, _ => if value.isSome then none else some (given.setFlag flag, none)
  | none, some option =>
    match value with
    | some value => some (given.setValue option value, none)
    | none => some (given, some option)
  | none, none =>
    match arg with
    | '-' :: '-' :: _ => some (given.addPositional arg, none)
    | _ => some (readLetters given [] arg.tail)

/-- Goes through the arguments; `none` is a usage error. -/
def scan (given : Given) : List Text → Option Given
  | [] => some given
  | ['-', '-'] :: rest => some { given with positional := given.positional ++ rest }
  | ('-' :: c :: cs) :: rest =>
    match readDashed given ('-' :: c :: cs), rest with
    | none, _ => none
    | some (given, none), rest => scan given rest
    | some (given, some option), value :: rest => scan (given.setValue option value) rest
    | some (_, some _), [] => none
  | arg :: rest => scan (given.addPositional arg) rest

/-- What the options and the only positional argument ask for. -/
def Given.command? (given : Given) : Option Command :=
  match given.positional, given.precision.map places? with
  | [expression], none => some (command expression none)
  | [expression], some (some places) => some (command expression (some places))
  | _, _ => none
where
  command (expression : Text) (precision : Option Nat) : Command :=
    ⟨expression, given.strict, precision, given.config.map fun p => .ofString (String.ofList p),
      given.verbose⟩

/-- Understands the arguments. A request for information is granted whatever else is wrong, except
with the options themselves. -/
def understand (args : List Text) : Invocation :=
  match scan {} args with
  | none => .usageError
  | some given =>
    match given.information with
    | some .help => .help
    | some _ => .version
    | none => given.command?.elim .usageError .run

end Reckoner.Terminal
