import SuiteDocs.Text.Strip
import SuiteDocs.Text.Utf8

/-!
Paths of files, relative or from the root.

A path is kept as its components. Empty and `.` components mean nothing and are dropped; `..` is
kept until the path is resolved.
-/

set_option autoImplicit false

namespace SuiteDocs

open SuiteDocs.Text

/-- Where a path starts. Exactly two leading slashes are a root of their own. -/
inductive Anchor where
  | relative
  | root
  | doubleRoot
  deriving DecidableEq, Repr

def Anchor.text : Anchor → Text
  | .relative => ""
  | .root => "/"
  | .doubleRoot => "//"

/-- A path: where it starts and its components. -/
structure Path where
  anchor : Anchor
  parts : List Text
  deriving DecidableEq, Repr

namespace Path

/-- The component that leads back. -/
def back : Text := ".."

/-- The components of a text between slashes. -/
def componentsOf (text : Text) : List Text :=
  (splitOn '/' text).filter fun part => part != "" && part != "."

def ofText (text : Text) : Path :=
  let anchor := match text.takeWhile (· == .char '/') with
    | [] => Anchor.relative
    | [_, _] => Anchor.doubleRoot
    | _ => Anchor.root
  ⟨anchor, componentsOf text⟩

/-- The text of a path; that of the empty relative one is a dot. -/
def toText (path : Path) : Text :=
  if path.anchor == .relative && path.parts.isEmpty then "."
  else path.anchor.text ++ List.intercalate "/" path.parts

def isAbsolute (path : Path) : Bool :=
  path.anchor != .relative

/-- The second path seen from the first. An absolute path stays as it is. -/
def join (base path : Path) : Path :=
  if path.isAbsolute then path else ⟨base.anchor, base.parts ++ path.parts⟩

def child (path : Path) (name : Text) : Path :=
  path.join (ofText name)

/-- The last component, empty if there is none. -/
def name (path : Path) : Text :=
  path.parts.getLastD ""

def parent (path : Path) : Path :=
  { path with parts := path.parts.dropLast }

/-- The last component without its extension: what follows its last dot, if the dot is neither its
first nor its last character. -/
def stem (path : Path) : Text :=
  let name := path.name
  let extension := afterLast '.' name
  if !extension.isEmpty && extension.length + 1 < name.length then
    name.take (name.length - extension.length - 1)
  else name

/-- Why a path names no place. -/
inductive Error where
  /-- A component holds a NUL character. -/
  | nul
  /-- A component has no bytes. -/
  | encoding (error : Utf8.EncodeError)
  /-- A user without a home directory. -/
  | noHome
  deriving DecidableEq, Repr

def Error.message : Error → Text
  | .nul => "embedded null byte"
  | .encoding error => error.message
  | .noHome => "Could not determine home directory."

/-- Takes one component into a place given as components from the root: `..` leads back, but never
above the root. -/
def enter (place : List Text) (part : Text) : List Text :=
  if part == back then place.dropLast else place ++ [part]

/-- The place that components name from the root. -/
def normalise (parts : List Text) : List Text :=
  parts.foldl enter []

/-- Refuses a path that no place can have: one without bytes, or with a NUL character. -/
def check (path : Path) : Except Error Unit :=
  match Utf8.nameError? path.toText with
  | some error => .error (.encoding error)
  | none => if path.parts.any (·.contains '\x00') then .error .nul else .ok ()

/-- The way that is left after `..`: a relative one may lead out of its start. -/
def leave (anchor : Anchor) (walked : List Text) : List Text :=
  if anchor == .relative && walked.getLastD back == back then walked ++ [back] else walked.dropLast

/-- Refuses a path by its first component that no place can have. The components walked so far are
given. -/
def checkFrom (anchor : Anchor) (walked : List Text) : List Text → Except Error Unit
  | [] => .ok ()
  | part :: rest =>
    if part == back then checkFrom anchor (leave anchor walked) rest
    else do
      check ⟨anchor, walked ++ [part]⟩
      checkFrom anchor (walked ++ [part]) rest

/-- The absolute path without `..` that a path names, seen from a directory. -/
def resolve (directory path : Path) : Except Error Path := do
  checkFrom (if path.isAbsolute then .root else .relative) [] path.parts
  return ⟨.root, normalise (directory.join path).parts⟩

/-- The components of a path below a directory, if the path lies there. -/
def below? (directory path : Path) : Option (List Text) :=
  if directory.anchor == path.anchor && directory.parts.isPrefixOf path.parts then
    some (path.parts.drop directory.parts.length)
  else none

/-- The number of leading components that two places share. -/
def sharedLength : List Text → List Text → Nat
  | a :: as, b :: bs => if a == b then sharedLength as bs + 1 else 0
  | _, _ => 0

/-- The way from one place to another: up with `..` and down again. -/
def wayBetween (start target : List Text) : List Text :=
  let shared := sharedLength start target
  List.replicate (start.length - shared) back ++ target.drop shared

/-- The key of a file in a model: its path seen from the root of the project. A relative path is
seen from that root already. -/
def keyFrom (root : Path) (path : Text) : Except Error Text := do
  let target ← resolve root (root.join (ofText path))
  match below? root target with
  | some parts => return toText ⟨.relative, parts⟩
  | none => return toText ⟨.relative, wayBetween (normalise root.parts) target.parts⟩

/-- What paths are seen from: the working directory, the home directory of the user, and those of
other users by name. -/
structure Surroundings where
  workingDirectory : Path
  home : Text
  otherHomes : List (Text × Text)

/-- A path in which a leading `~` or `~user` stands for a home directory. -/
def expandHome (surroundings : Surroundings) (path : Path) : Except Error Path :=
  match path.anchor, path.parts with
  | .relative, first :: rest =>
    if first == "~" then .ok (inHome surroundings.home rest)
    else if first.head? == some '~' then
      match surroundings.otherHomes.find? (·.1 == first.drop 1) with
      | some (_, home) => .ok (inHome home rest)
      | none => .error .noHome
    else .ok path
  | _, _ => .ok path
where
  /-- Components below a home directory. -/
  inHome (home : Text) (rest : List Text) : Path :=
    let home := ofText home
    { home with parts := home.parts ++ rest }

/-- The absolute path that a text names, home directories and the working directory considered. -/
def locate (surroundings : Surroundings) (text : Text) : Except Error Path := do
  let path ← expandHome surroundings (ofText text)
  resolve surroundings.workingDirectory path

end Path

end SuiteDocs
