import Reckoner.Toml.Document
/-!
# Reading a configuration file

Statement by statement: a key with its value, or the declaration of the table that the following
keys belong to. Fuel bounds the recursion; each step of it reads something. The limits are no part
of the form: a value too far inside others and a whole number with too many digits end the reading
with a fault of their own.
-/

namespace Reckoner.Toml

/-! ### Values -/

/-- An inline table under construction: its entries, and the keys whose values are complete. -/
structure Inline where
  content : Table := []
  frozen : List KeyPath := []

def Inline.assign (key : KeyPath) (value : Value) (inline : Inline) : Except Fault Inline := do
  if isWithin key inline.frozen then throw .malformed
  let last ← Document.orMalformed key.getLast?
  let content ← Document.orMalformed
    (inline.content.update? false (Table.insert? last value) key.dropLast)
  return ⟨content, if value.isCompound then key :: inline.frozen else inline.frozen⟩

/-- The values that contain no others. -/
def scanSimple (maxDigits : Nat) (text : Text) : Except Fault (Value × Text) :=
  match text with
  | 't' :: 'r' :: 'u' :: 'e' :: rest => pure (.boolean true, rest)
  | 'f' :: 'a' :: 'l' :: 's' :: 'e' :: rest => pure (.boolean false, rest)
  | _ =>
    match scanString? text with
    | some scanned => do
      let (body, rest) ← scanned
      return (.string body, rest)
    | none =>
      match scanMoment? text <|> scanNumber? maxDigits text with
      | some scanned => scanned
      | none => Document.orMalformed (scanSpecial? text)

/-- The calls that an array takes around its items, and an inline table around its values. The calls
that keys, blanks and simple values take for a moment are left out. -/
def arrayCalls : Nat := 2

def tableCalls : Nat := 3

/-- What is left of the limits inside so many more calls. -/
def Limits.enter (calls : Nat) (limits : Limits) : Except Fault Limits :=
  if calls ≤ limits.room then pure { limits with room := limits.room - calls } else throw .tooDeep

mutual

/-- A value of any kind. -/
def scanValue : (fuel : Nat) → Limits → Text → Except Fault (Value × Text)
  | 0, _, _ => throw .malformed
  | fuel + 1, limits, '[' :: rest => do
    let inside ← limits.enter arrayCalls
    match ← skipBetweenItems rest.length rest with
    | ']' :: rest => return (.array [], rest)
    | rest =>
      let (items, rest) ← scanItems fuel inside rest
      return (.array items, rest)
  | fuel + 1, limits, '\x7b' :: rest => do
    let inside ← limits.enter tableCalls
    match skipSpaces rest with
    | '\x7d' :: rest => return (.table [], rest)
    | rest =>
      let (inline, rest) ← scanEntries fuel inside {} rest
      return (.table inline.content, rest)
  | _ + 1, limits, text => scanSimple limits.digits text

/-- The items of an array, from one of them to the closing bracket. -/
def scanItems : (fuel : Nat) → Limits → Text → Except Fault (List Value × Text)
  | 0, _, _ => throw .malformed
  | fuel + 1, limits, text => do
    let (item, rest) ← scanValue fuel limits text
    match ← skipBetweenItems rest.length rest with
    | ']' :: rest => return ([item], rest)
    | ',' :: rest =>
      match ← skipBetweenItems rest.length rest with
      | ']' :: rest => return ([item], rest)
      | rest =>
        let (items, rest) ← scanItems fuel limits rest
        return (item :: items, rest)
    | _ => throw .malformed

/-- The entries of an inline table, from one of them to the closing brace. -/
def scanEntries : (fuel : Nat) → Limits → Inline → Text → Except Fault (Inline × Text)
  | 0, _, _, _ => throw .malformed
  | fuel + 1, limits, inline, text => do
    let (key, value, rest) ← scanAssignment fuel limits text
    let inline ← inline.assign key value
    match skipSpaces rest with
    | '\x7d' :: rest => return (inline, rest)
    | ',' :: rest => scanEntries fuel limits inline (skipSpaces rest)
    | _ => throw .malformed

/-- A key, an equals sign and a value. -/
def scanAssignment : (fuel : Nat) → Limits → Text → Except Fault (KeyPath × Value × Text)
  | 0, _, _ => throw .malformed
  | fuel + 1, limits, text => do
    match ← scanKey (text.length + 1) text with
    | (key, '=' :: rest) =>
      let (value, rest) ← scanValue fuel limits (skipSpaces rest)
      return (key, value, rest)
    | _ => throw .malformed

end

/-! ### Statements -/

/-- Enough for any nesting of values in a text. -/
def fuelFor (text : Text) : Nat := 3 * text.length + 3

/-- The declaration of an item of an array of tables, after its two brackets. -/
def readItemHeader (doc : Document) (text : Text) : Except Fault (Document × KeyPath × Text) := do
  match ← scanKey (text.length + 1) (skipSpaces text) with
  | (path, ']' :: ']' :: rest) =>
    let key ← Document.orMalformed path.getLast?
    return (← doc.closePending.declareItem path.dropLast key, path, rest)
  | _ => throw .malformed

/-- The declaration of a table, after its bracket. -/
def readTableHeader (doc : Document) (text : Text) : Except Fault (Document × KeyPath × Text) := do
  match ← scanKey (text.length + 1) (skipSpaces text) with
  | (path, ']' :: rest) => return (← doc.closePending.declareTable path, path, rest)
  | _ => throw .malformed

/-- One statement, if the line has one: the document with it, the table that is current after it,
and the rest of the line. -/
def readStatement (limits : Limits) (doc : Document) (table : KeyPath) (text : Text) :
    Except Fault (Document × KeyPath × Text) :=
  match text with
  | '[' :: '[' :: rest => readItemHeader doc rest
  | '[' :: rest => readTableHeader doc rest
  | c :: _ =>
    if isBareKeyChar c || c == '"' || c == '\'' then do
      let (key, value, rest) ← scanAssignment (fuelFor text) limits text
      return (← doc.assign table key value, table, rest)
    else if c == '#' || c == '\n' then pure (doc, table, text)
    else throw .malformed
  | [] => pure (doc, table, text)

/-- The lines of a file, one after another. -/
def readLines (limits : Limits) :
    (fuel : Nat) → Document → (table : KeyPath) → Text → Except Fault Document
  | 0, doc, _, _ => pure doc
  | fuel + 1, doc, table, text => do
    let (doc, table, rest) ← readStatement limits doc table (skipSpaces text)
    match ← skipComment (skipSpaces rest) with
    | [] => pure doc
    | '\n' :: rest => readLines limits fuel doc table rest
    | _ => throw .malformed

/-- The table that a file writes. -/
def read (limits : Limits) (text : Text) : Except Fault Table := do
  return (← readLines limits (text.length + 1) {} [] text).content

end Reckoner.Toml
