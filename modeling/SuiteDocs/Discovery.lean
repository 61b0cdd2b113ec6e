import SuiteDocs.FileTree.Basic
import SuiteDocs.Pattern.Glob
import SuiteDocs.Pattern.Ignore

/-!
The files of a project that are to be documented.

Below the root the walk goes on as long as there are directories: it limits neither the depth of a file
nor the length of its path. A path that is looked up by itself is refused if it is too long, the path of
the root included.
-/

set_option autoImplicit false

namespace SuiteDocs.Discovery

/-- The files that are documented unless other patterns are configured. -/
def defaultPatterns : List Text := ["e2e/**/*.spec.ts"]

/-- Directories that never hold files to document. -/
def excludedNames : List Text :=
  [".git", ".hg", ".svn", ".venv", "node_modules", "__pycache__", ".pytest_cache", ".mypy_cache",
    ".idea", ".angular", "dist", "playwright-report", "test-results"]

/-- Why no files can be found. -/
inductive Error where
  | path (error : Path.Error)
  | missing (root : Text)
  | notDirectory (root : Text)
  /-- The root cannot be looked for. -/
  | file (error : FileTree.Error)
  | ignoreFile (error : FileTree.ReadError)
  /-- A file came up behind the last pattern. -/
  | noPattern
  deriving DecidableEq, Repr

def Error.message : Error → Text
  | .path error => error.message
  | .missing root => "Source path not found: " ++ root
  | .notDirectory root => "Source path is not a directory: " ++ root
  | .file error => error.message
  | .ignoreFile error => error.message
  | .noPattern => "'list' object has no attribute 'replace'"

/-- The rules of the ignore file at a path; no file, no rules. -/
def ignoreFileRules (tree : FileTree) (directory path : Path) :
    Except FileTree.ReadError (List IgnoreRule) := do
  if ← (tree.pathExists directory path).mapError .file then
    (tree.readText directory path).map IgnoreRule.ofFile
  else return []

/-- The rules of the ignore file of a project and those of its configuration. -/
def ignoreRules (tree : FileTree) (root : Path) (excluded : List Text) :
    Except FileTree.ReadError (List IgnoreRule) := do
  let rules ← ignoreFileRules tree root (root.child ".gitignore")
  return rules ++ excluded.filterMap (IgnoreRule.ofLine? · false)

/-- A name in a directory, given by its path from the root of the project. -/
def pathIn (directory name : Text) : Text :=
  if directory.isEmpty then name else directory ++ "/" ++ name

/-- The paths of the files among the entries of a directory that no rule leaves out, those of the
directories below included unless a rule leaves the directory out. -/
def keptAmong (rules : List IgnoreRule) (directory : Text) :
    List (Text × FileTree) → List Text
  | [] => []
  | (name, .file _) :: rest =>
    let path := pathIn directory name
    (if IgnoreRule.ignores rules path false then [] else [path]) ++ keptAmong rules directory rest
  | (name, .directory entries) :: rest =>
    let path := pathIn directory name
    (if excludedNames.contains name || IgnoreRule.ignores rules path true then []
      else keptAmong rules path entries) ++ keptAmong rules directory rest

/-- The paths below a root of the files that no rule leaves out. The root is also given as it was
written, for messages. -/
def kept (tree : FileTree) (root : Path) (written : Text) (excluded : List Text) :
    Except Error (List Text) :=
  match tree.search root root with
  | .error error => .error (.file error)
  | .ok none => .error (.missing written)
  | .ok (some (.file _)) => .error (.notDirectory written)
  | .ok (some (.directory entries)) =>
    match ignoreRules tree root excluded with
    | .error error => .error (.ignoreFile error)
    | .ok rules => .ok (keptAmong rules "" entries)

/-- Whether one of the patterns selects a path. -/
def isSelected (patterns : List Text) (path : Text) : Bool :=
  patterns.any (Glob.selects · path)

/-- The files to document below a root, as absolute paths in the order of their paths below it. -/
def discover (tree : FileTree) (root : Path) (written : Text) (patterns excluded : List Text) :
    Except Error (List Path) := do
  let paths ← kept tree root written excluded
  return ((paths.filter (isSelected patterns)).mergeSort Text.le).map root.child

/-- The files to document if the list of patterns breaks off: then one of the patterns that are
there has to select every file. -/
def discoverAll (tree : FileTree) (root : Path) (written : Text) (patterns excluded : List Text) :
    Except Error (List Path) := do
  let paths ← kept tree root written excluded
  if paths.all (isSelected patterns) then discover tree root written patterns excluded
  else throw .noPattern

end SuiteDocs.Discovery
