import SuiteDocs.FileTree.Basic

/-!
What turns one tree into another that holds at least the same places.
-/

set_option autoImplicit false

namespace SuiteDocs.FileTree

/-- One step on the way from a tree to a later one. -/
inductive Change where
  | makeDirectory (place : List Text)
  | writeFile (place : List Text) (bytes : List UInt8)
  deriving DecidableEq, Repr

/-- The steps from the entries that a directory had to those that it has now. A directory is made
before what stands in it. -/
def changesAmong (place : List Text) (before : List (Text × FileTree)) :
    List (Text × FileTree) → List Change
  | [] => []
  | (name, .file bytes) :: rest =>
    (match child? before name with
      | some (.file known) => if known == bytes then [] else [.writeFile (place ++ [name]) bytes]
      | _ => [.writeFile (place ++ [name]) bytes]) ++ changesAmong place before rest
  | (name, .directory entries) :: rest =>
    (match child? before name with
      | some (.directory known) => changesAmong (place ++ [name]) known entries
      | _ => .makeDirectory (place ++ [name]) :: changesAmong (place ++ [name]) [] entries) ++
        changesAmong place before rest

/-- The steps from one tree of directories to a later one. -/
def changes : FileTree → FileTree → List Change
  | .directory before, .directory after => changesAmong [] before after
  | _, _ => []

end SuiteDocs.FileTree
