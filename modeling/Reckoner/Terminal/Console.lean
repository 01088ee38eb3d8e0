import Reckoner.CommandLine.Command
import Reckoner.Terminal.CellWidth
/-!
# The console of a terminal

In the markup of this console a word in brackets changes the style, and a backslash before the
bracket takes it literally, as two backslashes stand for one there. Text is escaped accordingly, but
only at brackets that open a style: before any other bracket a backslash of the text itself is taken
for an escape and lost. Characters that would move the cursor are left out, and tabs are filled up
with blanks to the next stop, eight cells apart. Names of pictographs between colons stay as they
are.
-/

namespace Reckoner.Terminal

/-! ### Markup -/

/-- The characters a style can start with, after its bracket. -/
def opensStyle (c : Char) : Bool :=
  ('a' ≤ c && c ≤ 'z') || c == '#' || c == '/' || c == '@'

/-- Whether a text, after an opening bracket, goes on as a style: up to a closing bracket, with no
other opening one before it. -/
def continuesStyle : Text → Bool
  | c :: rest => opensStyle c && rest.find? (fun c => c == '[' || c == ']') == some ']'
  | [] => false

def backslashes (count : Nat) : Text := List.replicate count '\\'

/-- The text after so many backslashes, with everything that opens a style escaped. -/
def escapeStyles (count : Nat) : Text → Text
  | [] => backslashes count
  | '\\' :: rest => escapeStyles (count + 1) rest
  | '[' :: rest =>
    backslashes (if continuesStyle rest then 2 * count + 1 else count) ++ '[' :: escapeStyles 0 rest
  | c :: rest => backslashes count ++ c :: escapeStyles 0 rest

/-- A single backslash at the end is doubled, lest it escape what follows the text. -/
def withSafeEnd (text : Text) : Text :=
  match text.reverse with
  | '\\' :: '\\' :: _ => text
  | '\\' :: _ => text ++ ['\\']
  | _ => text

/-- The characters that a markup shows after so many backslashes. The name of a style is passed
over. -/
def shownOf (inStyle : Bool) (count : Nat) : Text → Text
  | [] => backslashes count
  | c :: rest =>
    if inStyle then shownOf (c != ']') 0 rest
    else if c = '\\' then shownOf false (count + 1) rest
    else if c = '[' then
      if !continuesStyle rest then backslashes (count - 1) ++ '[' :: shownOf false 0 rest
      else if count % 2 = 1 then backslashes (count / 2) ++ '[' :: shownOf false 0 rest
      else backslashes (count / 2) ++ shownOf true 0 rest
    else backslashes count ++ c :: shownOf false 0 rest

/-! ### Cells -/

/-- Bell, backspace, vertical tab, form feed and carriage return. -/
def isCursorControl (c : Char) : Bool :=
  c.toNat ∈ [7, 8, 11, 12, 13]

def tabWidth : Nat := 8

/-- Puts the pieces between tabs together, starting in a column. A tab is at least one blank. -/
def fillTabs (column : Nat) : List Text → Text
  | [] => []
  | [piece] => piece
  | piece :: rest =>
    let reached := column + cellWidth (piece ++ [' '])
    let missing := (tabWidth - reached % tabWidth) % tabWidth
    piece ++ List.replicate (missing + 1) ' ' ++ fillTabs (reached + missing) rest

/-- Fills up the tabs of every line. -/
def expandTabs (text : Text) : Text :=
  List.intercalate ['\n'] ((text.splitOn '\n').map fun line => fillTabs 0 (line.splitOn '\t'))

/-! ### The console -/

def console : CommandLine.Console where
  escape text := String.ofList (withSafeEnd (escapeStyles 0 text.toList))
  print markup :=
    let shown := (shownOf false 0 markup.toList).filter (!isCursorControl ·)
    String.ofList (expandTabs shown) ++ "\n"

end Reckoner.Terminal
