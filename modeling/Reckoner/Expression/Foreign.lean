import Reckoner.Double.Printer
import Reckoner.Text.Quoted
/-!
# Values that are not expressions

A caller can hand over any plain value where an expression is due. Such a value can be shown and
compared, and its kind can be named, but it has no value as an expression.
-/

namespace Reckoner

/-- The kinds of value that are not expressions. -/
inductive Kind where
  | text | integer | real | boolean | nothing | list | table
deriving DecidableEq

def Kind.name : Kind → String
  | text => "str"
  | integer => "int"
  | real => "float"
  | boolean => "bool"
  | nothing => "NoneType"
  | list => "list"
  | table => "dict"

inductive Foreign where
  | text (text : Text)
  | integer (n : Int)
  | real (x : Double)
  | boolean (b : Bool)
  | nothing
  | list (items : List Foreign)
  | table (entries : List (Text × Foreign))

namespace Foreign

def kind : Foreign → Kind
  | text _ => .text
  | integer _ => .integer
  | real _ => .real
  | boolean _ => .boolean
  | nothing => .nothing
  | list _ => .list
  | table _ => .table

/-! ### Printing -/

mutual

/-- The value as a part of another shows it. -/
def innerText : Foreign → Text
  | text t => Text.quotedChars t
  | integer n => Text.ofInt n
  | real x => x.fullText
  | boolean true => "True".toList
  | boolean false => "False".toList
  | nothing => "None".toList
  | list items => '[' :: Text.commaSeparated (itemTexts items) ++ [']']
  | table entries => '\x7b' :: Text.commaSeparated (entryTexts entries) ++ ['\x7d']

def itemTexts : List Foreign → List Text
  | [] => []
  | item :: rest => item.innerText :: itemTexts rest

def entryTexts : List (Text × Foreign) → List Text
  | [] => []
  | (key, value) :: rest =>
    (Text.quotedChars key ++ ':' :: ' ' :: value.innerText) :: entryTexts rest

end

/-- The value by itself; a text needs no quotes then. -/
def render : Foreign → String
  | text t => String.ofList t
  | value => String.ofList value.innerText

/-! ### Equality

Truth values count as the numbers zero and one, and numbers of both kinds are compared by what they
are worth. -/

def whole? : Foreign → Option Int
  | integer n => some n
  | boolean b => some (if b then 1 else 0)
  | _ => none

/-- Whether two values are numbers, and the same one. -/
def equalNumbers (x y : Foreign) : Bool :=
  match x.whole?, y.whole?, x, y with
  | some m, some n, _, _ => m == n
  | some n, none, _, real r | none, some n, real r, _ => r.equalsInt n
  | none, none, real r, real s => r.equals s
  | _, _, _, _ => false

mutual

def equals : Foreign → Foreign → Bool
  | text s, text t => s == t
  | nothing, nothing => true
  | list xs, list ys => equalItems xs ys
  | table xs, table ys => xs.length == ys.length && equalEntries xs ys
  | x, y => equalNumbers x y

def equalItems : List Foreign → List Foreign → Bool
  | [], [] => true
  | x :: xs, y :: ys => x.equals y && equalItems xs ys
  | _, _ => false

/-- Whether all entries are among some others, in whatever order. -/
def equalEntries : List (Text × Foreign) → List (Text × Foreign) → Bool
  | [], _ => true
  | (key, value) :: rest, others =>
    (match others.lookup key with
      | some other => value.equals other
      | none => false)
      && equalEntries rest others

end

end Foreign

end Reckoner
