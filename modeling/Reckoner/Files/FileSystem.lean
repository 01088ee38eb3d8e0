import Reckoner.Files.Path
import Reckoner.Text.Quoted
/-!
# Files as they are at one moment

A file system here is a snapshot: what stands at each place below a root, and which directory is the
current one. Reading a path walks it part by part, as every part but the last has to be a directory
even when the next one leads back up. A search upwards asks of one place after another whether a
regular file stands there. Either can be refused at a place that one may not look at.
-/

namespace Reckoner

/-- Why a path cannot be read. -/
inductive ReadError where
  | notFound
  | notADirectory
  | isADirectory
  | nameTooLong
  /-- Any other reason, in the words of the system. -/
  | other (words : String)
deriving DecidableEq

/-- The words for an error that came up at a path. -/
def ReadError.text (path : String) : ReadError → String
  | notFound => numbered "[Errno 2] No such file or directory"
  | notADirectory => numbered "[Errno 20] Not a directory"
  | isADirectory => numbered "[Errno 21] Is a directory"
  | nameTooLong => numbered "[Errno 36] File name too long"
  | other words => words
where
  numbered (reason : String) : String := reason ++ ": " ++ Text.quoted path.toList

/-- What can stand at a place. -/
inductive Entry where
  | missing
  | directory
  /-- A regular file, and what reading it comes to. -/
  | file (content : Except ReadError ByteArray)
  /-- Something else that can be opened, such as a device. -/
  | special (content : Except ReadError ByteArray)
  /-- A place that one may not look at. -/
  | hidden (reason : ReadError)

/-- Places are lists of names from the root down. -/
structure FileSystem where
  entry : List String → Entry
  /-- The root as an absolute path shows it. -/
  rootText : String
  /-- Whether the root is the top of all, and so its own parent. Otherwise nothing is known of what
  lies outside but that it holds no files of interest. -/
  isTop : Bool
  current : List String

namespace FileSystem

/-- The snapshot of given directories and files, whose parents are directories. -/
def ofTree (rootText : String) (directories : List (List String))
    (files : List (List String × ByteArray)) (current : List String) : FileSystem where
  entry place :=
    match files.lookup place with
    | some content => .file (.ok content)
    | none =>
      if place.isEmpty || (directories ++ files.map (·.1)).any place.isPrefixOf then .directory
      else .missing
  rootText := rootText
  isTop := false
  current := current

/-- A place, or `none` outside the root. -/
abbrev Place := Option (List String)

def parent (fs : FileSystem) : List String → Place
  | [] => if fs.isTop then some [] else none
  | place => some place.dropLast

/-- Where a path starts. -/
def start (fs : FileSystem) (path : Path) : Place :=
  if path.anchor == "" then some fs.current else if fs.isTop then some [] else none

/-- The longest name that a place can have, in bytes, and the longest path. -/
def maxNameBytes : Nat := 255

def maxPathBytes : Nat := 4095

/-- Follows the parts of a path, every one of them from a directory. -/
def walk (fs : FileSystem) : Place → List String → Except ReadError Place
  | here, [] => pure here
  | none, part :: rest => if part == ".." then walk fs none rest else throw .notFound
  | some here, part :: rest =>
    match fs.entry here with
    | .missing => throw .notFound
    | .file _ | .special _ => throw .notADirectory
    | .hidden reason => throw reason
    | .directory =>
      if maxNameBytes < part.utf8ByteSize then throw .nameTooLong
      else walk fs (if part == ".." then fs.parent here else some (here ++ [part])) rest

/-- The content of what stands at a place. -/
def readAt (fs : FileSystem) (place : List String) : Except ReadError ByteArray :=
  match fs.entry place with
  | .missing => throw .notFound
  | .directory => throw .isADirectory
  | .file content | .special content => content
  | .hidden reason => throw reason

/-- The content of the file that a path leads to. -/
def read (fs : FileSystem) (path : Path) : Except ReadError ByteArray := do
  if maxPathBytes < path.text.utf8ByteSize then throw .nameTooLong
  match ← fs.walk (fs.start path) path.parts with
  | some place => fs.readAt place
  | none => throw .isADirectory

/-! ### Searching upwards -/

/-- Follows the parts of a path without asking whether they exist. -/
def resolveParts (fs : FileSystem) : Place → List String → Place
  | here, [] => here
  | none, _ => none
  | some here, part :: rest =>
    resolveParts fs (if part == ".." then fs.parent here else some (here ++ [part])) rest

def resolve (fs : FileSystem) (path : Path) : Place :=
  fs.resolveParts (fs.start path) path.parts

/-- A place and all above it, the nearest first. -/
def ancestors (place : List String) : List (List String) :=
  ((List.range (place.length + 1)).map fun n => place.take n).reverse

/-- Whether a regular file stands at a place, if one may know. -/
def isFile (fs : FileSystem) (place : List String) : Except ReadError Bool :=
  match fs.entry place with
  | .file _ => pure true
  | .hidden reason => throw reason
  | _ => pure false

/-- The nearest regular file of a name in a directory or above it. The search ends at the first
place that it is refused to look at. -/
def findUpwards (fs : FileSystem) (name : String) (place : List String) :
    Except ReadError (Option (List String)) :=
  ((ancestors place).map (· ++ [name])).findM? fs.isFile

/-- The absolute path of a place. -/
def absoluteText (fs : FileSystem) (place : List String) : String :=
  fs.rootText ++ String.join (place.map ("/" ++ ·))

end FileSystem

end Reckoner
