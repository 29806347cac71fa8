import SqlSnapshot.CommandLine
import Std.Time.DateTime.Timestamp

/-!
# The program

The outer layer: it loads the part of the file system that a run can read, runs the command on it,
and stores what the run changed.
-/

namespace SqlSnapshot.Main

def absolute (l : Location) : String :=
  "/" ++ String.intercalate "/" l

def entry (l : Location) : IO.FS.DirEntry :=
  { root := absolute l.dropLast, fileName := l.getLastD "." }

/-- The location of a path, taken from the working directory where it is relative. -/
def locate (here : Location) (path : String) : Location :=
  (Path.names path).foldl (fun l name =>
    if name = "." then l else if name = ".." then l.dropLast else l ++ [name])
    (if Path.isAbsolute path then [] else here)

/-- Loads a node with everything below it. -/
partial def loadTree (d : Disk) (l : Location) : IO Disk := do
  let path := (entry l).path
  if ← path.isDir then
    let entries ← path.readDir
    entries.foldlM (fun d e => loadTree d (l ++ [e.fileName])) (d.put l .directory)
  else if ← path.pathExists then
    return d.put l (.file (← IO.FS.readBinFile path))
  else return d

/-- Loads the directories on the way to a node, or the file that is in their place. -/
def loadAbove (d : Disk) (l : Location) : IO Disk :=
  (List.range l.length).foldlM (fun d n => do
    let above := l.take n
    let path := (entry above).path
    if ← path.isDir then return d.put above .directory
    else if ← path.pathExists then return d.put above (.file (← IO.FS.readBinFile path))
    else return d) d

/-- Stores one node; a file is put in place as a whole. -/
def store (l : Location) : Node → IO Unit
  | .directory => IO.FS.createDirAll (absolute l)
  | .file content => do
    let path := absolute l
    let draft := path ++ ".new"
    IO.FS.writeBinFile draft content
    IO.FS.rename draft path

def storeChanges (before after : Disk) : IO Unit :=
  after.nodes.forM fun (l, n) => if before.node? l == some n then pure () else store l n

/-- The paths that a run can read. -/
def pathsOf (args : List String) : List String :=
  match Arguments.parse args with
  | .ok a => a.catalogFile.toList ++ [a.options.stateDirectory]
  | .error _ => []

end SqlSnapshot.Main

open SqlSnapshot in
def main (args : List String) : IO UInt32 := do
  let here := Main.locate [] (← IO.currentDir).toString
  let now := (← Std.Time.Timestamp.now).toNanosecondsSinceUnixEpoch.val
  let time : Timestamp := ⟨now / 1000000000, (now % 1000000000).toNat⟩
  let around ← Main.loadAbove { here } (here ++ ["."])
  let before ← (Main.pathsOf args).foldlM (fun d path => do
    let l := Main.locate here path
    Main.loadTree (← Main.loadAbove d l) l) around
  let (outcome, after) := CommandLine.run time (← IO.getEnv "SPOCR_CONNECTION_STRING") before args
  Main.storeChanges before after
  IO.print outcome.output
  if let some error := outcome.error then IO.eprintln s!"spocr-snapshot: error: {error}"
  if outcome.code = 2 then IO.eprint CommandLine.help
  return outcome.code.toUInt32
