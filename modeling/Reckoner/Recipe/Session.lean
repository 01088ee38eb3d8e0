import Reckoner.Double.Reader
import Reckoner.Evaluation
import Reckoner.Recipe.Basic
import Reckoner.Text.UpperCase
/-!
# Running recipes

A recipe that is referred to is built when it is first needed and never again, however many
references there are, however many texts are read and whether or not they could be. That is what a
session remembers, beside the events of the text at hand; it outlives a run that breaks off.
-/

namespace Reckoner

/-- What can be seen of a run from outside. -/
inductive Event where
  | build (name : String)
  | run (id : String) (text : Text)
deriving DecidableEq

/-- Why a run broke off. -/
inductive Fault where
  | notANumber
  | notAnExpression
  | wrongKind
  | senseless (error : EvalError)
  | undefinedName (name : String)
  | endless
deriving DecidableEq

structure Session where
  built : List String := []
  events : List Event := []
  records : List Record := []

/-- Runs that change a session and may break off, leaving it as it is then. -/
abbrev Run := ExceptT Fault (StateM Session)

namespace Session

def note (event : Event) : Run Unit :=
  modify fun session => { session with events := session.events ++ [event] }

def log (record : Record) : Run Unit :=
  modify fun session => { session with records := session.records ++ [record] }

/-- Makes sure that a name is built. -/
def ensureBuilt (name : String) : Run Unit := do
  unless (← get).built.contains name do
    note (.build name)
    modify fun session => { session with built := name :: session.built }

end Session

/-! ### Functions and tests on values -/

namespace Value

/-- The expression that the value is, or else its kind. -/
def expression : Value → Except Kind Expr
  | tree t => pure t
  | text _ => throw .text
  | integer _ => throw .integer
  | nothing => throw .nothing
  | number _ => throw .real
  | list _ => throw .list

def length : Value → Run Nat
  | text t => pure t.length
  | list items => pure items.length
  | _ => throw .wrongKind

def toInteger : Value → Run Value
  | text t => (Text.readInt? t).elim (throw .notANumber) fun n => pure (.integer n)
  | integer n => pure (.integer n)
  | _ => throw .wrongKind

def toNumber : Value → Run Value
  | text t => (Double.read? t).elim (throw .notANumber) fun x => pure (.number x)
  | integer n => pure (.number (.ofDecimal (n < 0) n.natAbs 0))
  | number x => pure (.number x)
  | _ => throw .wrongKind

def twice : Value → Run Value
  | text t => pure (.text (t ++ t))
  | integer n => pure (.integer (n + n))
  | number x => pure (.number (x.add x))
  | list items => pure (.list (items ++ items))
  | _ => throw .wrongKind

def evaluate (value : Value) : Run Value := do
  match value.expression with
  | .error kind => throw (.senseless (.notAnExpression kind))
  | .ok t =>
    match Evaluation.evaluate t with
    | .ok x =>
      Session.log (Evaluation.record t x)
      return .number x
    | .error error => throw (.senseless error)

end Value

def Transform.apply : Transform → Value → Run Value
  | length, value => return .integer (← value.length)
  | toInteger, value => value.toInteger
  | toNumber, value => value.toNumber
  | upper, .text text => pure (.text (Text.toUpper text))
  | upper, _ => throw .wrongKind
  | twice, value => value.twice
  | evaluate, value => value.evaluate
  | box, value => pure (.list [value])
  | const, _ => pure (.text "const".toList)
  | negate, .tree tree => pure (.tree (.binary .sub (.literal (.zero false)) tree))
  | negate, _ => throw .notAnExpression

def Test.apply : Test → Value → Run Bool
  | always, _ => pure true
  | never, _ => pure false
  | isEmpty, .text text => pure text.isEmpty
  | isEmpty, _ => pure false
  | isShort, value => return (← value.length) < 3
  | isPlus, .text text => pure (text == ['+'])
  | isPlus, _ => pure false
  | hasEvenLength, value => return (← value.length) % 2 == 0
  | isLiteral, .tree (.literal _) => pure true
  | isLiteral, _ => pure false

/-! ### Parsers -/

namespace Recipe

section

variable {α β : Type}

/-- Applies a function that may break off to the value of a success. -/
def transformed (p : Parser Run α) (f : α → Run β) : Parser Run β :=
  fun text => do
    match ← p text with
    | .success value rest => return .success (← f value) rest
    | .failure failure => return .failure failure

/-- Turns down a success whose value does not pass a test, which may break off. -/
def tested (p : Parser Run α) (passes : α → Run Bool) (message : String) : Parser Run α :=
  fun text => do
    match ← p text with
    | .success value rest =>
      if ← passes value then return .success value rest
      else return .failure ⟨message, [], some text⟩
    | .failure failure => return .failure failure

/-- The parser that a name refers to, with at most `depth` references inside each other. What a name
stands for may use any of the names, and is built when the name is first used. -/
def resolved (definition? : String → Option ((String → Parser Run α) → Parser Run α)) :
    (depth : Nat) → String → Parser Run α
  | 0, _ => fun _ => throw .endless
  | depth + 1, name => fun text => do
    match definition? name with
    | none => throw (.undefinedName name)
    | some definition =>
      Session.ensureBuilt name
      definition (resolved definition? depth) text

end

/-- A value that has to be a text. -/
def expectText : Value → Run Text
  | .text text => pure text
  | _ => throw .wrongKind

def chosen (keys : List Text) (branches : List (Parser Run Value)) (otherwise : Parser Run Value)
    (key : Text) : Parser Run Value :=
  ((keys.zip branches).lookup key).getD otherwise

mutual

/-- The parser of a recipe, given those of the names. -/
def parser (deref : String → Parser Run Value) : Recipe → Parser Run Value
  | literal wanted => (Parser.literal wanted).map .text
  | pattern source p => (Parser.matching source p.match?).map .text
  | succeed value => .succeed value
  | oneOf alternatives => .oneOf (parsers deref alternatives)
  | orElse first second => (parser deref first).orElse (parser deref second)
  | next first second => (parser deref first).andThen fun _ => parser deref second
  | pair first second =>
    (parser deref first).andThen fun x => (parser deref second).map fun y => .list [x, y]
  | same first =>
    (parser deref first).andThen fun value text => do
      let wanted ← expectText value
      ((Parser.literal wanted).map .text) text
  | switch first keys branches otherwise =>
    (parser deref first).andThen fun value text => do
      let key ← expectText value
      chosen keys (parsers deref branches) (parser deref otherwise) key text
  | map first f => transformed (parser deref first) f.apply
  | filter first test message => tested (parser deref first) test.apply message
  | fail failure => .fail failure
  | rule r => r.parser
  | ref name => deref name
  | spy id first => fun text => do
    Session.note (.run id text)
    parser deref first text

def parsers (deref : String → Parser Run Value) : List Recipe → List (Parser Run Value)
  | [] => []
  | recipe :: rest => parser deref recipe :: parsers deref rest

end

/-- The parser of a name, with at most `depth` names inside each other. -/
def named (recipes : Recipes) : (depth : Nat) → String → Parser Run Value :=
  resolved fun name => (recipes.lookup name).map fun recipe deref => parser deref recipe

/-- Runs a recipe on a text. Between two characters every name can be passed once; to pass one again
without reading would go on for ever. -/
def run (recipes : Recipes) (recipe : Recipe) (text : Text) : Run (Outcome Value) :=
  parser (named recipes (recipes.length * (text.length + 1) + 1)) recipe text

/-- What reading one text of several came to. -/
structure Step where
  result : Except Fault (Outcome Value)
  trace : List Event
  records : List Record

/-- Runs a recipe on one text after another, in one session. -/
def runAll (recipes : Recipes) (recipe : Recipe) (built : List String) : List Text → List Step
  | [] => []
  | text :: rest =>
    let (result, session) := (run recipes recipe text).run ⟨built, [], []⟩
    ⟨result, session.events, session.records⟩ :: runAll recipes recipe session.built rest

end Recipe

end Reckoner
