import Reckoner.Double.Printer
import Reckoner.Text.Quoted
import Reckoner.Toml.Moment
/-!
# Values of a configuration file

Tables keep their entries in the order in which the file gives them.
-/

namespace Reckoner.Toml

inductive Value where
  | boolean (b : Bool)
  | integer (n : Int)
  | float (x : Double)
  | string (text : Text)
  | date (date : Date)
  | time (time : Time)
  | dateTime (date : Date) (time : Time) (offset : Option Offset)
  | array (items : List Value)
  | table (entries : List (Text × Value))

/-- Entries by key; no key occurs twice. -/
abbrev Table := List (Text × Value)

namespace Value

mutual

/-- The value as messages show it. -/
def text : Value → Text
  | boolean true => "True".toList
  | boolean false => "False".toList
  | integer n => Text.ofInt n
  | float x => x.fullText
  | string t => Text.quotedChars t
  | date d => d.text
  | time t => t.text
  | dateTime d t offset => dateTimeText d t offset
  | array items => '[' :: Text.commaSeparated (itemTexts items) ++ [']']
  | table entries => '\x7b' :: Text.commaSeparated (entryTexts entries) ++ ['\x7d']

def itemTexts : List Value → List Text
  | [] => []
  | item :: rest => item.text :: itemTexts rest

def entryTexts : List (Text × Value) → List Text
  | [] => []
  | (key, value) :: rest =>
    (Text.quotedChars key ++ ':' :: ' ' :: value.text) :: entryTexts rest

end

mutual

/-- Whether the value can be shown, which takes a numeral for every whole number in it. -/
def isShowable : Value → Bool
  | integer n => Text.hasNumeral n
  | array items => areShowable items
  | table entries => haveShowable entries
  | _ => true

def areShowable : List Value → Bool
  | [] => true
  | item :: rest => item.isShowable && areShowable rest

def haveShowable : List (Text × Value) → Bool
  | [] => true
  | (_, value) :: rest => value.isShowable && haveShowable rest

end

/-- Whether the value is made of other values. -/
def isCompound : Value → Bool
  | array _ | table _ => true
  | _ => false

end Value

end Reckoner.Toml
