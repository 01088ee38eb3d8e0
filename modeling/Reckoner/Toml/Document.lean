import Reckoner.Toml.Scan
/-!
# A document under construction

Statements of a file extend the tables before them, within limits: a table is declared once, a value
is given once, and what was written out as one value, an array or an inline table, stays as it is.
Beside its content a document keeps the paths that these limits concern.
-/

namespace Reckoner.Toml

/-- Keys from the outermost table inwards. -/
abbrev KeyPath := List Text

namespace Table

def contains (table : Table) (key : Text) : Bool := (table.lookup key).isSome

/-- Changes the value of a key that is there. -/
def replace (key : Text) (value : Value) (table : Table) : Table :=
  table.map fun (k, v) => if k = key then (k, value) else (k, v)

/-- Adds a key that is not there yet. -/
def insert? (key : Text) (value : Value) (table : Table) : Option Table :=
  if table.contains key then none else some (table ++ [(key, value)])

/-- Adds an empty table to an array of tables, which is made if need be. -/
def appendTable? (key : Text) (table : Table) : Option Table :=
  match table.lookup key with
  | none => some (table ++ [(key, .array [.table []])])
  | some (.array items) => some (table.replace key (.array (items ++ [.table []])))
  | some _ => none

/-- Changes the table at a path. Tables on the way that are missing are made; anything else in the
way is an obstacle, but an array of tables may lead on to its last one. -/
def update? (throughArrays : Bool) (change : Table → Option Table) : KeyPath → Table → Option Table
  | [], table => change table
  | key :: path, table =>
    match table.lookup key with
    | none => do
      let inner ← update? throughArrays change path []
      return table ++ [(key, .table inner)]
    | some (.table inner) => do
      let inner ← update? throughArrays change path inner
      return table.replace key (.table inner)
    | some (.array items) =>
      match throughArrays, items.getLast? with
      | true, some (.table inner) => do
        let inner ← update? throughArrays change path inner
        return table.replace key (.array (items.dropLast ++ [.table inner]))
      | _, _ => none
    | some _ => none

end Table

/-- Whether a path leads to or into one of some others. -/
def isWithin (path : KeyPath) (others : List KeyPath) : Bool :=
  others.any fun other => !other.isEmpty && other.isPrefixOf path

structure Document where
  content : Table := []
  /-- Tables that may not be declared any more. -/
  declared : List KeyPath := []
  /-- Tables made by keys of several parts, closed when the next table is declared. -/
  pending : List KeyPath := []
  /-- Values that may not be extended. -/
  frozen : List KeyPath := []

namespace Document

def orMalformed {α : Type} : Option α → Except Fault α
  | some value => pure value
  | none => throw .malformed

/-- A document in which everything before the next declaration is closed. -/
def closePending (doc : Document) : Document :=
  { doc with declared := doc.pending ++ doc.declared, pending := [] }

/-- Declares the table at a path. -/
def declareTable (path : KeyPath) (doc : Document) : Except Fault Document := do
  if doc.declared.contains path || isWithin path doc.frozen then throw .malformed
  let content ← orMalformed (doc.content.update? true some path)
  return { doc with content, declared := path :: doc.declared }

/-- Adds a table to the array of tables at a path. The new table starts afresh, so what was closed
inside the previous one is open again. -/
def declareItem (path : KeyPath) (key : Text) (doc : Document) : Except Fault Document := do
  let whole := path ++ [key]
  if isWithin whole doc.frozen then throw .malformed
  let content ← orMalformed (doc.content.update? true (Table.appendTable? key) path)
  let outside := fun (other : KeyPath) => !whole.isPrefixOf other
  return { doc with
    content
    declared := whole :: doc.declared.filter outside
    frozen := doc.frozen.filter outside }

/-- The paths that a key passes through below a table, without its end. -/
def passed (table : KeyPath) (key : KeyPath) : List KeyPath :=
  (List.range key.length).tail.map fun n => table ++ key.take n

/-- Gives a key of the table at hand its value. -/
def assign (table : KeyPath) (key : KeyPath) (value : Value) (doc : Document) :
    Except Fault Document := do
  let steps := passed table key
  if steps.any doc.declared.contains then throw .malformed
  let parent := table ++ key.dropLast
  if isWithin parent doc.frozen then throw .malformed
  let last ← orMalformed key.getLast?
  let content ← orMalformed (doc.content.update? true (Table.insert? last value) parent)
  return { doc with
    content
    pending := steps ++ doc.pending
    frozen := if value.isCompound then (table ++ key) :: doc.frozen else doc.frozen }

end Document

end Reckoner.Toml
