import SqlSnapshot.Dependency
import SqlSnapshot.Json.Printer
import SqlSnapshot.Json.Reader

/-!
# Cache entries

An entry is the fingerprint of a procedure at the time when its snapshot was written.  A cache file
holds the entries in the order of the procedures' names; `CacheEntries` is a map from procedures to
entries, kept in that order.
-/

namespace SqlSnapshot

structure CacheEntry where
  schema : String
  name : String
  lastModified : Timestamp
  snapshotHash : Option String
  snapshotFile : Option String
  lastAnalyzed : Timestamp
  dependencies : List Dependency
deriving DecidableEq, Repr, Inhabited

namespace CacheEntry

def descriptor (e : CacheEntry) : Descriptor := ⟨e.schema, e.name⟩

/-- The entries agree in everything but the spelling of the name and the time of the analysis. -/
def sameFingerprint (a b : CacheEntry) : Bool :=
  a.descriptor.same b.descriptor && a.lastModified == b.lastModified &&
    a.snapshotHash == b.snapshotHash && a.snapshotFile == b.snapshotFile &&
    a.dependencies == b.dependencies

def toJson (e : CacheEntry) : Json :=
  .object (Json.field "schema" (.text e.schema) ++ Json.field "name" (.text e.name) ++
    Json.field "lastModifiedUtc" e.lastModified.toJson ++
    Json.fieldSome "snapshotHash" e.snapshotHash .text ++
    Json.fieldSome "snapshotFile" e.snapshotFile .text ++
    Json.field "lastAnalyzedUtc" e.lastAnalyzed.toJson ++
    Json.field "dependencies" (Json.ofList Dependency.toJson e.dependencies))

def ofJson? (j : Json) : Option CacheEntry := do
  let r ← j.asRecord? ["schema", "name", "lastModifiedUtc", "snapshotHash", "snapshotFile",
    "lastAnalyzedUtc", "dependencies"]
  return {
    schema := ← r.required "schema" Json.asText?
    name := ← r.required "name" Json.asText?
    lastModified := ← r.required "lastModifiedUtc" Timestamp.ofJson?
    snapshotHash := ← r.maybe "snapshotHash" Json.asText?
    snapshotFile := ← r.maybe "snapshotFile" Json.asText?
    lastAnalyzed := ← r.required "lastAnalyzedUtc" Timestamp.ofJson?
    dependencies := ← r.withDefault "dependencies" [] (Json.asList? Dependency.ofJson?) }

end CacheEntry

/-- Entries of different procedures in increasing order. -/
abbrev CacheEntries := List CacheEntry

namespace CacheEntries

def get? (es : CacheEntries) (d : Descriptor) : Option CacheEntry :=
  es.find? (·.descriptor.same d)

/-- Puts an entry in the place of the one of the same procedure, or in its order. -/
def put (e : CacheEntry) : CacheEntries → CacheEntries
  | [] => [e]
  | f :: fs =>
    match e.descriptor.compare f.descriptor with
    | .lt => e :: f :: fs
    | .eq => e :: fs
    | .gt => f :: put e fs

def putAll (es added : CacheEntries) : CacheEntries :=
  added.foldl (fun es e => put e es) es

def erase (es : CacheEntries) (d : Descriptor) : CacheEntries :=
  es.filter fun e => !e.descriptor.same d

/-! ## Cache files -/

def currentVersion : Nat := 1

def toJson (es : CacheEntries) : Json :=
  .object (Json.field "version" (.ofNat currentVersion) ++
    Json.field "entries" (Json.ofList CacheEntry.toJson es))

def fileText (es : CacheEntries) : String :=
  (toJson es).pretty ++ "\n"

def ofJson? (j : Json) : Option CacheEntries := do
  let r ← j.asRecord? ["version", "entries"]
  let version ← r.required "version" (Json.asNatBelow? UInt32.size)
  let entries ← r.required "entries" (Json.asList? CacheEntry.ofJson?)
  if version = currentVersion then
    return putAll [] (entries.map fun e =>
      { e with dependencies := Dependency.canonical e.dependencies })
  else none

/-- The entries of a cache file.  A file that cannot be read or is of another version has none. -/
def ofFile (content : Option ByteArray) : CacheEntries :=
  (do ofJson? (← Json.parse? (← String.fromUTF8? (← content)))).getD []

end CacheEntries

end SqlSnapshot
