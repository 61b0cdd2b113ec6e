import SuiteDocs.OrderedMap
import SuiteDocs.Path.Basic
import SuiteDocs.Text.Lines
import SuiteDocs.Text.Quoted
import SuiteDocs.Text.Utf8

/-!
Trees of files and directories without links.

Paths are followed as they are written: every component but the last has to name a directory, also
one that a later `..` leaves again.
-/

set_option autoImplicit false

namespace SuiteDocs

open SuiteDocs.Text

/-- A file with its bytes, or a directory with its entries. -/
inductive FileTree where
  | file (bytes : List UInt8)
  | directory (entries : List (Text × FileTree))

namespace FileTree

/-- Why a file or directory cannot be used. -/
inductive Cause where
  | missing
  | exists
  | notDirectory
  | isDirectory
  | nameTooLong
  deriving DecidableEq, Repr

/-- A refused use of the path that is named. -/
structure Error where
  cause : Cause
  path : Text
  deriving DecidableEq, Repr

def Cause.message : Cause → Text
  | .missing => "[Errno 2] No such file or directory"
  | .exists => "[Errno 17] File exists"
  | .notDirectory => "[Errno 20] Not a directory"
  | .isDirectory => "[Errno 21] Is a directory"
  | .nameTooLong => "[Errno 36] File name too long"

def Error.message (error : Error) : Text :=
  error.cause.message ++ ": " ++ quoted error.path

def empty : FileTree := .directory []

def child? (entries : List (Text × FileTree)) (name : Text) : Option FileTree :=
  (entries.find? (·.1 == name)).map (·.2)

/-- What stands at a place, given as components from the root. -/
def find? : FileTree → List Text → Option FileTree
  | tree, [] => some tree
  | .file _, _ :: _ => none
  | .directory entries, name :: rest =>
    match child? entries name with
    | none => none
    | some child => find? child rest

/-- The tree with something else at a place. Directories on the way are made if they are missing;
below a file nothing is put. -/
def put (new : FileTree) : FileTree → List Text → FileTree
  | _, [] => new
  | .file bytes, _ :: _ => .file bytes
  | .directory entries, name :: rest =>
    let child := (child? entries name).getD empty
    .directory (OrderedMap.insertEntry name (put new child rest) entries)

/-- The most bytes that the name of an entry may have. -/
def maxNameSize : Nat := 255

/-- The most bytes that a whole path may have. -/
def maxPathSize : Nat := 4095

/-- Whether no directory can have an entry with that name. -/
def isLongName (name : Text) : Bool :=
  maxNameSize < Utf8.nameSize name

/-- Whether no place can be reached by a path, however short its components are. -/
def isLongPath (path : Path) : Bool :=
  maxPathSize < Utf8.nameSize path.toText

/-- Follows components from a place to the place that they name. -/
def follow (tree : FileTree) (place : List Text) : List Text → Except Cause (List Text)
  | [] => .ok place
  | part :: rest =>
    match tree.find? place with
    | none => .error .missing
    | some (.file _) => .error .notDirectory
    | some (.directory entries) =>
      if part == Path.back then follow tree place.dropLast rest
      else if isLongName part then .error .nameTooLong
      else if (child? entries part).isSome then follow tree (place ++ [part]) rest
      else .error .missing

/-- The components from the root that a path names as it is written, seen from a directory. -/
def rawParts (directory path : Path) : List Text :=
  (directory.join path).parts

def lookup (tree : FileTree) (directory path : Path) : Except Cause FileTree := do
  if path.check.isOk then pure () else throw .missing
  if isLongPath path then throw .nameTooLong
  let place ← follow tree [] (rawParts directory path)
  match tree.find? place with
  | none => throw .missing
  | some node => return node

/-- What stands at a path, if anything does. A path that is too long is refused. -/
def search (tree : FileTree) (directory path : Path) : Except Error (Option FileTree) :=
  match tree.lookup directory path with
  | .ok node => .ok (some node)
  | .error .nameTooLong => .error ⟨.nameTooLong, path.toText⟩
  | .error _ => .ok none

def pathExists (tree : FileTree) (directory path : Path) : Except Error Bool :=
  (tree.search directory path).map Option.isSome

def isDirectoryAt (tree : FileTree) (directory path : Path) : Except Error Bool :=
  (tree.search directory path).map fun
    | some (.directory _) => true
    | _ => false

/-- Why the text of a file cannot be read. -/
inductive ReadError where
  | file (error : Error)
  | encoding (error : Utf8.Error)
  deriving DecidableEq, Repr

def ReadError.message : ReadError → Text
  | .file error => error.message
  | .encoding error => error.message

/-- The text of the file at a path, with its line ends unified. -/
def readText (tree : FileTree) (directory path : Path) : Except ReadError Text :=
  match tree.lookup directory path with
  | .error cause => .error (.file ⟨cause, path.toText⟩)
  | .ok (.directory _) => .error (.file ⟨.isDirectory, path.toText⟩)
  | .ok (.file bytes) =>
    match Utf8.decode bytes with
    | .error error => .error (.encoding error)
    | .ok text => .ok (unifyNewlines text)

/-- The directory in which the last component of a path stands, and that component. There is none
for a path that ends in `..` or has no components. -/
def parentPlace (tree : FileTree) (directory path : Path) (ending : Cause) :
    Except Cause (List Text × Text) := do
  if isLongPath path then throw .nameTooLong
  let parts := rawParts directory path
  match parts.getLast? with
  | none => throw ending
  | some name =>
    let place ← follow tree [] parts.dropLast
    match tree.find? place with
    | some (.directory _) =>
      if name == Path.back then throw ending
      else if isLongName name then throw .nameTooLong
      else return (place, name)
    | some (.file _) => throw .notDirectory
    | none => throw .missing

/-- Writes a file, in place of the one at the same path if there is one. -/
def writeFile (tree : FileTree) (directory path : Path) (bytes : List UInt8) :
    Except Error FileTree :=
  match parentPlace tree directory path .isDirectory with
  | .error cause => .error ⟨cause, path.toText⟩
  | .ok (place, name) =>
    match tree.find? (place ++ [name]) with
    | some (.directory _) => .error ⟨.isDirectory, path.toText⟩
    | _ => .ok (put (.file bytes) tree (place ++ [name]))

/-- Adds bytes at the end of a file, which is made if it is missing. -/
def appendFile (tree : FileTree) (directory path : Path) (bytes : List UInt8) :
    Except Error FileTree :=
  match tree.lookup directory path with
  | .ok (.file before) => tree.writeFile directory path (before ++ bytes)
  | _ => tree.writeFile directory path bytes

/-- Makes one directory in a directory that is there already. -/
def makeDirectory (tree : FileTree) (directory path : Path) : Except Error FileTree :=
  match parentPlace tree directory path .exists with
  | .error cause => .error ⟨cause, path.toText⟩
  | .ok (place, name) =>
    match tree.find? (place ++ [name]) with
    | some _ => .error ⟨.exists, path.toText⟩
    | none => .ok (put empty tree (place ++ [name]))

/-- A refused directory counts as made if there is one at the path. -/
def acceptExisting (tree : FileTree) (directory path : Path) :
    Except Error FileTree → Except Error FileTree
  | .ok made => .ok made
  | .error error => do
    if error.cause == .missing then throw error
    if ← tree.isDirectoryAt directory path then return tree
    throw error

/-- Makes a directory and those above it that are missing, `depth` components up at most. The tree
is returned also when a directory is refused, with those above it. -/
def makeDirectoriesUpTo (directory : Path) : Nat → FileTree → Path → FileTree × Except Error Unit
  | 0, tree, path =>
    finish tree (acceptExisting tree directory path (tree.makeDirectory directory path))
  | depth + 1, tree, path =>
    match tree.makeDirectory directory path with
    | .ok made => (made, .ok ())
    | .error error =>
      if error.cause == .missing then
        match makeDirectoriesUpTo directory depth tree path.parent with
        | (tree, .error error) => (tree, .error error)
        | (tree, .ok ()) =>
          finish tree (acceptExisting tree directory path (tree.makeDirectory directory path))
      else finish tree (acceptExisting tree directory path (.error error))
where
  /-- The tree after a step, and whether the step was refused. -/
  finish (tree : FileTree) : Except Error FileTree → FileTree × Except Error Unit
    | .ok made => (made, .ok ())
    | .error error => (tree, .error error)

/-- Makes a directory and all those above it that are missing. -/
def makeDirectories (tree : FileTree) (directory path : Path) : FileTree × Except Error Unit :=
  makeDirectoriesUpTo directory path.parts.length tree path

end FileTree

end SuiteDocs
