import SqlSnapshot.Cache.Basic
import SqlSnapshot.Catalog
import SqlSnapshot.Disk

/-!
# Effects of a build

A build asks a catalog, reads and writes a disk, keeps a cache, and can be cancelled at any time.
`Conditions` says what it meets from outside: the catalog's answers, which of its calls fail or see
the build cancelled, and which accesses to the disk fail.  `World` is what it finds and leaves.
-/

namespace SqlSnapshot

inductive Phase where
  | collect
  | recordReuse
  | analyze
  | write
deriving DecidableEq, Repr, Inhabited

namespace Phase

def name : Phase → String
  | .collect => "collect"
  | .recordReuse => "record-reuse"
  | .analyze => "analyze"
  | .write => "write"

end Phase

/-- What is reported of a phase when it is over. -/
structure PhaseReport where
  phase : Phase
  items : Nat
  notes : Option String
deriving DecidableEq, Repr, Inhabited

/-- A question to the catalog. -/
inductive Call where
  | listProcedures
  | listDependencyEdges
  | procedureDefinition (d : Descriptor)
  | objectLastModified (kind : DependencyKind) (schema name : String)
  | tableColumns (schema table : String)
deriving DecidableEq, Repr, Inhabited

namespace Call

def method : Call → String
  | .listProcedures => "listProcedures"
  | .listDependencyEdges => "listDependencyEdges"
  | .procedureDefinition _ => "procedureDefinition"
  | .objectLastModified _ _ _ => "objectLastModified"
  | .tableColumns _ _ => "tableColumns"

def arguments : Call → List String
  | .listProcedures => []
  | .listDependencyEdges => []
  | .procedureDefinition d => [d.display]
  | .objectLastModified kind schema name => [kind.name, schema, name]
  | .tableColumns schema table => [schema, table]

def render (c : Call) : String :=
  c.method ++ "(" ++ String.intercalate "," c.arguments ++ ")"

end Call

/-- What happens at a call besides the answer. -/
inductive Incident where
  | fails (reason : String)
  /-- The build is cancelled while the catalog answers. -/
  | cancels
deriving DecidableEq, Repr

/-- `atCall` and `diskFails` take the number of calls or accesses before; `cancelsAfter` says at
which reports of a phase the build is cancelled. -/
structure Conditions where
  catalog : Catalog
  now : Timestamp
  atCall : Nat → Call → Option Incident := fun _ _ => none
  diskFails : Nat → Bool := fun _ => false
  cancelsAfter : Phase → Bool := fun _ => false

/-- The columns of the tables that were looked up, by the keys of the tables. -/
abbrev TableCache := List (String × Option (List TableColumn))

structure World where
  disk : Disk
  cache : Cache
  cancelled : Bool := false
  tables : TableCache := []
  /-- The calls and the number of accesses so far. -/
  calls : List Call := []
  accesses : Nat := 0
  phases : List PhaseReport := []
deriving Inhabited

inductive BuildError where
  /-- The catalog gave no answer. -/
  | catalog (reason : String)
  /-- The node at the path could not be written or read. -/
  | io (path : String)
  | cancelled (phase : Phase)
deriving DecidableEq, Repr, Inhabited

namespace BuildError

def message : BuildError → String
  | .catalog reason => "catalog query failed: " ++ reason
  | .io path => "failed to write " ++ path
  | .cancelled phase => "snapshot build cancelled during " ++ phase.name

end BuildError

/-- A step of a build: it may fail, and leaves its effects on the world even then. -/
abbrev Build := ExceptT BuildError (StateM World)

namespace Build

/-- The outcome of a step on a world, and the world that it leaves. -/
def run {α : Type} (step : Build α) (w : World) : Except BuildError α × World :=
  StateT.run (ExceptT.run step) w

def checkCancelled (phase : Phase) : Build Unit := do
  if (← get).cancelled then throw (.cancelled phase)

/-- Puts a question to the catalog, whose answer is given. -/
def ask {α : Type} (env : Conditions) (call : Call) (answer : Catalog → α) : Build α := do
  let before := (← get).calls
  modify fun w => { w with calls := before ++ [call] }
  match env.atCall before.length call with
  | some (.fails reason) => throw (.catalog reason)
  | some .cancels =>
    modify fun w => { w with cancelled := true }
    return answer env.catalog
  | none => return answer env.catalog

/-- One access to the disk, with the outcome that it has when the disk fails. -/
def access {α : Type} (env : Conditions) (failed : α) (act : Disk → Disk × α) : Build α := do
  let w ← get
  if env.diskFails w.accesses then
    set { w with accesses := w.accesses + 1 }
    return failed
  else
    let (disk, outcome) := act w.disk
    set { w with accesses := w.accesses + 1, disk }
    return outcome

/-- The content of a file; none if it cannot be read. -/
def contentOf (env : Conditions) (path : String) : Build (Option ByteArray) :=
  access env none fun d => (d, (d.contentOf path).toOption)

def isFile (env : Conditions) (path : String) : Build Bool :=
  access env false fun d => (d, d.isFile path)

/-- Creates a directory; false if that fails. -/
def makeDirectories (env : Conditions) (path : String) : Build Bool :=
  access env false fun d =>
    let (d, outcome) := d.makeDirectories path
    (d, outcome.isOk)

/-- Puts a file in place as a whole; false if that fails. -/
def replaceFile (env : Conditions) (directory name : String) (content : ByteArray) : Build Bool :=
  access env false fun d =>
    let (d, outcome) := d.replaceFile directory name content
    (d, outcome.isOk)

/-- The fingerprint of the documents in a directory; none if there is no such directory. -/
def fingerprint (env : Conditions) (path : String) (digest : List (String × ByteArray) → String) :
    Build (Option String) := do
  match ← access env (.error .refused) fun d => (d, d.documents path) with
  | .ok files => return some (digest files)
  | .error .missing => return none
  | .error .refused => throw (.io path)

def report (env : Conditions) (phase : Phase) (items : Nat) (notes : Option String) : Build Unit :=
  modify fun w => { w with
    phases := w.phases ++ [⟨phase, items, notes⟩]
    cancelled := w.cancelled || env.cancelsAfter phase }

/-- The columns of a table.  A table is asked for once; a question that failed is put again. -/
def tableColumns (env : Conditions) (schema table : String) :
    Build (Option (List TableColumn)) := do
  let key := objectKey schema table
  match (← get).tables.lookup key with
  | some columns => return columns
  | none =>
    let columns ← ask env (.tableColumns schema table) fun c => c.columns? schema table
    modify fun w => { w with tables := (key, columns) :: w.tables }
    return columns

end Build

end SqlSnapshot
