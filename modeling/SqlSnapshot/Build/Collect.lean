import SqlSnapshot.Build.Effects
import SqlSnapshot.Collection.Graph
import SqlSnapshot.Filter.Basic

/-!
# Selecting procedures

The procedures that the filter accepts and those to which they refer, directly or not, are
selected.  A procedure is reused when its cache entry still describes it: it was not modified after
the entry, its dependencies are the same, and its snapshot is there.
-/

namespace SqlSnapshot

namespace CacheEntry

/-- The entry describes a procedure as it is now. -/
def describes (e : CacheEntry) (row : ProcedureRow) (dependencies : List Dependency) : Bool :=
  !e.lastModified.before row.modified && Dependency.canonical e.dependencies == dependencies

end CacheEntry

namespace Build

/-- The modify dates of objects that were asked for, by kind and key. -/
abbrev Dates := List ((DependencyKind × String) × Option Timestamp)

/-- The modify date of what an edge refers to.  Procedures have theirs in the list of procedures;
all others are asked for, each once. -/
def dateOf (env : Conditions) (g : ReferenceGraph) (dates : Dates) (kind : DependencyKind)
    (e : DependencyEdge) : Build (Option Timestamp × Dates) := do
  let listed := if kind = .procedure then g.row? e.toKey else none
  match listed with
  | some row => return (some row.modified, dates)
  | none =>
    match dates.lookup (kind, e.toKey) with
    | some date => return (date, dates)
    | none =>
      checkCancelled .collect
      let date ← ask env (.objectLastModified kind e.toSchema e.toName) fun c =>
        c.lastModified? kind e.toSchema e.toName
      return (date, ((kind, e.toKey), date) :: dates)

/-- The kind of what an edge refers to: known to the catalog, or a listed procedure. -/
def kindOf? (g : ReferenceGraph) (e : DependencyEdge) : Option DependencyKind :=
  e.kind.or (if g.isProcedure e.toKey then some .procedure else none)

/-- The dependencies along the edges in their order; a reference to itself is none. -/
def dependenciesAlong (env : Conditions) (g : ReferenceGraph) (ownKey : String) (dates : Dates) :
    List DependencyEdge → Build (List Dependency × Dates)
  | [] => return ([], dates)
  | e :: es =>
    if e.toKey == ownKey then dependenciesAlong env g ownKey dates es
    else
      match kindOf? g e with
      | none => dependenciesAlong env g ownKey dates es
      | some kind => do
        let (date, dates) ← dateOf env g dates kind e
        let (others, dates) ← dependenciesAlong env g ownKey dates es
        return (⟨kind, e.toSchema, e.toName, date⟩ :: others, dates)

/-- What to do with a procedure, given its cache entry. -/
def decide (env : Conditions) (o : Options) (row : ProcedureRow) (dependencies : List Dependency)
    (cached : Option CacheEntry) : Build Decision := do
  match cached with
  | none => return .analyze
  | some entry =>
    match entry.describes row dependencies, entry.snapshotFile with
    | true, some file =>
      if ← isFile env (Path.join o.schemaDirectory file) then return .reuse else return .analyze
    | _, _ => return .analyze

def collectOne (env : Conditions) (o : Options) (g : ReferenceGraph) (dates : Dates)
    (d : Descriptor) (row : ProcedureRow) : Build (CollectionItem × Dates) := do
  let (found, dates) ← dependenciesAlong env g row.key dates (g.references row.key)
  let dependencies := Dependency.canonical found
  let cache := (← get).cache
  let cached := if o.noCache then none else cache.get? d
  let decision ← decide env o row dependencies cached
  return ({
    descriptor := row.descriptor
    decision
    lastModified := some row.modified
    cachedHash := cached.bind (·.snapshotHash)
    cachedFile := cached.bind (·.snapshotFile)
    cachedDependencies := (cached.map (·.dependencies)).getD []
    dependencies }, dates)

def collectAll (env : Conditions) (o : Options) (g : ReferenceGraph) (dates : Dates) :
    List Descriptor → Build (List CollectionItem)
  | [] => return []
  | d :: ds => do
    match g.row? d.key with
    | none => collectAll env o g dates ds
    | some row =>
      let (item, dates) ← collectOne env o g dates d row
      return item :: (← collectAll env o g dates ds)

/-- Selects the procedures of a build; what was asked for and is not there comes last. -/
def collect (env : Conditions) (o : Options) : Build Collection := do
  checkCancelled .collect
  let rows ← ask env .listProcedures fun c => c.rows
  checkCancelled .collect
  let edges ← ask env .listDependencyEdges fun c => c.dependencies
  checkCancelled .collect
  let filter := NameFilter.ofOptions o
  let g := ReferenceGraph.ofLists rows edges
  let seeds := rows.filter fun r => filter.accepts r.descriptor
  let items ← collectAll env o g [] (g.closure (seeds.map (·.key)))
  let procedures := rows.map (·.descriptor)
  let missing := filter.missing procedures
  return {
    items := items ++ missing.map .skipped
    seedCount := seeds.length
    issues := missing.map (fun d => .procedureNotFound d.display) ++
      (filter.rejected procedures).map fun d => .procedureFilteredBySchema d.display }

end Build

end SqlSnapshot
