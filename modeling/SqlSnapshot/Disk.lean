import SqlSnapshot.Path
import SqlSnapshot.Text.Utf8

/-!
# Disks

A disk is a file tree as a map from locations to nodes, with the directory from which relative
paths are taken.  An operation that fails says only whether something is missing, as other
failures are not told apart.
-/

namespace SqlSnapshot

/-- The names of the directories from the root down to a node, and its own. -/
abbrev Location := List String

inductive Node where
  | file (content : ByteArray)
  | directory
deriving BEq, Inhabited

inductive DiskError where
  /-- There is no such node, or no directory in which it could be. -/
  | missing
  | refused
deriving DecidableEq, Repr, Inhabited

structure Disk where
  here : Location := []
  nodes : List (Location × Node) := []
deriving Inhabited

namespace Disk

/-- The root is a directory on every disk. -/
def node? (d : Disk) (l : Location) : Option Node :=
  if l = [] then some .directory else d.nodes.lookup l

def isDirectory (d : Disk) (l : Location) : Bool :=
  match d.node? l with
  | some .directory => true
  | _ => false

def putNode (l : Location) (n : Node) : List (Location × Node) → List (Location × Node)
  | [] => [(l, n)]
  | (k, m) :: rest => if k = l then (l, n) :: rest else (k, m) :: putNode l n rest

def put (d : Disk) (l : Location) (n : Node) : Disk :=
  { d with nodes := putNode l n d.nodes }

/-- The disk without a node and everything below it. -/
def remove (d : Disk) (l : Location) : Disk :=
  { d with nodes := d.nodes.filter fun n => !l.isPrefixOf n.1 }

/-! ## From paths to locations -/

/-- The longest name of a node, in bytes. -/
def nameLimit : Nat := 255

/-- The longest path, in bytes. -/
def pathLimit : Nat := 4095

/-- The location to which the names lead, each from an existing directory; the last node itself
may be missing. -/
def walk (d : Disk) (at_ : Location) : List String → Except DiskError Location
  | [] => .ok at_
  | name :: names =>
    match d.node? at_ with
    | none => .error .missing
    | some (.file _) => .error .refused
    | some .directory =>
      if name = "." then d.walk at_ names
      else if name = ".." then d.walk at_.dropLast names
      else if nameLimit < name.utf8ByteSize then .error .refused
      else d.walk (at_ ++ [name]) names

def origin (d : Disk) (path : String) : Location :=
  if Path.isAbsolute path then [] else d.here

def isUsable (path : String) : Bool :=
  !path.toList.contains '\x00' && path.utf8ByteSize ≤ pathLimit

def resolve (d : Disk) (path : String) : Except DiskError Location :=
  if path.isEmpty then .error .missing
  else if isUsable path then d.walk (d.origin path) (Path.names path)
  else .error .refused

def find (d : Disk) (path : String) : Except DiskError Node := do
  match d.node? (← d.resolve path) with
  | some n => .ok n
  | none => .error .missing

/-! ## Reading -/

def contentOf (d : Disk) (path : String) : Except DiskError ByteArray := do
  match ← d.find path with
  | .file content => .ok content
  | .directory => .error .refused

def isFile (d : Disk) (path : String) : Bool :=
  (d.contentOf path).isOk

/-- A node that lies directly in the directory, with its name. -/
def childName? (parent l : Location) : Option String :=
  match l.getLast? with
  | some name => if l = parent ++ [name] then some name else none
  | none => none

/-- The files directly in a directory with their names. -/
def filesOf (d : Disk) (parent : Location) : List (String × ByteArray) :=
  d.nodes.filterMap fun (l, n) =>
    match n, childName? parent l with
    | .file content, some name => some (name, content)
    | _, _ => none

/-- The files directly in a directory whose names end in `.json`. -/
def documents (d : Disk) (path : String) : Except DiskError (List (String × ByteArray)) := do
  let l ← d.resolve path
  match d.node? l with
  | some .directory => .ok ((d.filesOf l).filter fun f => Path.extension? f.1 == some "json")
  | some (.file _) => .error .refused
  | none => .error .missing

/-- All files below a directory, as locations from there on, in increasing order. -/
def tree (d : Disk) (path : String) : List Location :=
  match d.resolve path with
  | .error _ => []
  | .ok top =>
    let below := d.nodes.filterMap fun (l, n) =>
      match n with
      | .file _ => if top ≠ l ∧ top.isPrefixOf l then some (l.drop top.length) else none
      | .directory => none
    below.mergeSort fun a b => !decide (b < a)

/-! ## Writing -/

/-- Creates the directories that are missing on the way along the names.  What was created before
a failure stays. -/
def makeAlong (d : Disk) (at_ : Location) : List String → Disk × Except DiskError Location
  | [] => (d, .ok at_)
  | name :: names =>
    if d.isDirectory at_ then
      if name = "." then d.makeAlong at_ names
      else if name = ".." then d.makeAlong at_.dropLast names
      else if nameLimit < name.utf8ByteSize then (d, .error .refused)
      else
        let next := at_ ++ [name]
        match d.node? next with
        | some .directory => d.makeAlong next names
        | some (.file _) => (d, .error .refused)
        | none => (d.put next .directory).makeAlong next names
    else (d, .error .missing)

def makeDirectories (d : Disk) (path : String) : Disk × Except DiskError Location :=
  if isUsable path then d.makeAlong (d.origin path) (Path.names path)
  else (d, .error .refused)

/-- A name of the length of those under which files are written before they get their own. -/
def draftName : String := ".tmp000000"

/-- Puts a whole file in place of what a directory held under its name: the file is there
entirely, or the node is as it was.  The directory is created if it is missing. -/
def replaceFile (d : Disk) (directory name : String) (content : ByteArray) :
    Disk × Except DiskError Unit :=
  match d.makeDirectories directory with
  | (d, .error e) => (d, .error e)
  | (d, .ok parent) =>
    let l := parent ++ [name]
    if !isUsable (Path.join directory draftName) ∨ !isUsable (Path.join directory name) ∨
        nameLimit < name.utf8ByteSize ∨ d.isDirectory l then (d, .error .refused)
    else (d.put l (.file content), .ok ())

def write (d : Disk) (path : String) (content : ByteArray) : Except DiskError Disk := do
  let l ← d.resolve path
  if d.isDirectory l then .error .refused else .ok (d.put l (.file content))

def delete (d : Disk) (path : String) : Except DiskError Disk := do
  let l ← d.resolve path
  match d.node? l with
  | some _ => .ok (d.remove l)
  | none => .error .missing

end Disk

end SqlSnapshot
