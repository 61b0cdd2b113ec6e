import Std.Time.DateTime.Timestamp
import SuiteDocs.CommandLine.Run
import SuiteDocs.FileTree.Change

/-!
The program: it takes the places that a line names from the disk, carries the line out on them, and
brings what changed back to the disk.
-/

set_option autoImplicit false

namespace SuiteDocs.CommandLine

/-- The tree at a place of the disk. A link to a directory is shown without entries, and so is a
directory that never holds files to document. What cannot be read is left out. -/
partial def readTree (place : String) : IO (Option FileTree) := do
  try
    let real ← IO.FS.realPath place
    if ← real.isDir then
      let entries ← real.readDir
      let children ← entries.toList.filterMapM fun item => do
        let below := s!"{place}/{item.fileName}"
        let kind := (← item.path.symlinkMetadata).type
        let name := Text.ofString item.fileName
        let closed := Discovery.excludedNames.contains name || kind == .symlink
        let child ←
          if closed && (← item.path.isDir) then pure (some FileTree.empty) else readTree below
        return child.map (name, ·)
      return some (.directory children)
    else return some (.file (← IO.FS.readBinFile place).toList)
  catch _ => return none

/-- Takes what stands at a path from the disk into a tree, with the directories above it. -/
def graft (tree : FileTree) (path : Path) : IO FileTree := do
  let steps := List.range path.parts.length
  let above ← steps.foldlM (fun tree depth => do
    let parts := path.parts.take depth
    if (tree.find? parts).isSome then return tree
    match ← (IO.FS.realPath (Path.toText ⟨.root, parts⟩).shown).toBaseIO with
    | .ok real => return FileTree.put (if ← real.isDir then .empty else .file []) tree parts
    | .error _ => return tree) tree
  match ← readTree path.toText.shown with
  | some node => return FileTree.put node above path.parts
  | none => return above

/-- The tree with what stands at the paths that texts name. -/
def graftAll (surroundings : Path.Surroundings) (tree : FileTree) (places : List Text) :
    IO FileTree :=
  places.foldlM (fun tree place =>
    match Path.locate surroundings place with
    | .ok path => graft tree path
    | .error _ => return tree) tree

/-- The sources that results name: their root and the file of every suite. -/
def resultSources (surroundings : Path.Surroundings) (tree : FileTree) (results : Text)
    (root : Option Text) : Except Project.Error (List Text) := do
  let file ← (Path.locate surroundings results).mapError .path
  let root ← (Project.requestedRoot? surroundings root).mapError .path
  let loaded ← (Results.load surroundings tree file root).mapError .results
  let files := (HostSuite.preorderAll loaded.suites).filterMap HostSuite.file?
  return loaded.root.toText ::
    files.map fun file => (loaded.root.join (Path.ofText file)).toText

/-- The places that an invocation looks at. Sources come first, so that single files in directories
that are not opened come on top of them. -/
def Invocation.readPlaces (surroundings : Path.Surroundings) (invocation : Invocation) :
    IO FileTree := do
  let logs := (invocation.logFile.bind Value.toOption).toList.map Path.toText
  match invocation.command with
  | .generate path _ output _ =>
    let output := (output.bind Value.toOption).toList
    graftAll surroundings .empty (path :: output ++ logs)
  | .report results root output _ =>
    let alone ← graftAll surroundings .empty [results]
    let root := root.bind Value.toOption
    let output := (output.bind Value.toOption).toList
    let sources := match resultSources surroundings alone results root with
      | .ok sources => sources
      | .error _ => []
    graftAll surroundings .empty (sources ++ results :: output ++ logs)
  | .serve .. => graftAll surroundings .empty logs

/-- Brings a change to the disk. -/
def writeChange : FileTree.Change → IO Unit
  | .makeDirectory place => IO.FS.createDirAll (Path.toText ⟨.root, place⟩).shown
  | .writeFile place bytes =>
    IO.FS.writeBinFile (Path.toText ⟨.root, place⟩).shown ⟨bytes.toArray⟩

def processEnvironment : IO Project.Environment := do
  let directory ← IO.currentDir
  let home ← IO.getEnv "HOME"
  let now ← Std.Time.Timestamp.now
  let nanoseconds := now.toNanosecondsSinceUnixEpoch.val.toNat
  return {
    surroundings :=
      { workingDirectory := Path.ofText directory.toString
        home := Text.ofString (home.getD "/")
        otherHomes := [] }
    clock := .ofInstant (Moment.epoch + nanoseconds / 1000)
    calls := none
    reader := Yaml.Document.ofText }

/-- Shows what a line did. The status is returned. -/
def Outcome.present (outcome : Outcome) : IO UInt32 := do
  (← IO.getStdout).putStr outcome.output.shown
  (← IO.getStderr).putStr outcome.errors.shown
  if let some (host, port) := outcome.served then
    let host := ((host.toOption).getD "").shown
    let port := (port.toOption).getD 0
    IO.eprintln s!"annodoc serve: cannot listen on {host}:{port}: sockets are not supported"
    return 1
  return outcome.status.toUInt32

/-- Carries out the words of a line on the disk. -/
def runOnDisk (arguments : List String) : IO UInt32 := do
  match Invocation.ofArguments (arguments.map Text.ofString) with
  | .error stop => stop.outcome.present
  | .ok invocation =>
    let environment ← processEnvironment
    let before ← invocation.readPlaces environment.surroundings
    let (after, result) := invocation.run environment (Console.stamp environment.clock) before
    (before.changes after).forM writeChange
    match result with
    | .ok outcome => outcome.present
    | .error error =>
      IO.eprintln error.message.shown
      return 1

end SuiteDocs.CommandLine

def main (arguments : List String) : IO UInt32 :=
  SuiteDocs.CommandLine.runOnDisk arguments
