import SqlSnapshot.Cache.Entry
import SqlSnapshot.Collection.Basic
import SqlSnapshot.Definition.Analysis
import SqlSnapshot.Options

/-!
# The cache of a build

Look-ups answer from the entries that were loaded at the start of a build.  What the build records
is staged, unless it repeats what was loaded, and written at its end all at once.
-/

namespace SqlSnapshot

/-- `directory` is that of the cache file, once there is one. -/
structure Cache where
  directory : Option String := none
  answers : Bool := false
  loaded : CacheEntries := []
  staged : CacheEntries := []
deriving DecidableEq, Repr, Inhabited

inductive FlushOutcome where
  /-- The file was written. -/
  | persisted
  /-- There was nothing new; the file was not touched. -/
  | unchanged
  /-- Writing failed; the file is as it was. -/
  | failed
deriving DecidableEq, Repr, Inhabited

namespace FlushOutcome

def name : FlushOutcome → String
  | .persisted => "Persisted"
  | .unchanged => "Unchanged"
  | .failed => "Failed"

end FlushOutcome

namespace Cache

/-- The cache at the start of a build, given the content of the cache file. -/
def load (o : Options) (content : Option ByteArray) : Cache where
  directory := some o.cacheDirectory
  answers := !o.noCache
  loaded := CacheEntries.ofFile content
  staged := []

def get? (c : Cache) (d : Descriptor) : Option CacheEntry :=
  if c.answers then c.loaded.get? d else none

/-- Stages an entry; one with the fingerprint that was loaded needs no writing. -/
def stage (c : Cache) (e : CacheEntry) : Cache :=
  match c.loaded.get? e.descriptor with
  | some old =>
    if old.sameFingerprint e then { c with staged := c.staged.erase e.descriptor }
    else { c with staged := c.staged.put e }
  | none => { c with staged := c.staged.put e }

/-- Records an analysis whose snapshot is written; without a date it cannot be recorded. -/
def recordAnalysis (c : Cache) (now : Timestamp) (a : Analysis) : Cache :=
  match a.lastModified with
  | none => c
  | some lastModified =>
    c.stage {
      schema := a.descriptor.schema
      name := a.descriptor.name
      lastModified
      snapshotHash := a.snapshotHash
      snapshotFile := a.snapshotFile
      lastAnalyzed := now
      dependencies := Dependency.canonical a.dependencies }

/-- Records a procedure whose snapshot was kept, with the time of its last analysis. -/
def recordReuse (c : Cache) (now : Timestamp) (i : CollectionItem) : Cache :=
  match i.lastModified with
  | none => c
  | some lastModified =>
    c.stage {
      schema := i.descriptor.schema
      name := i.descriptor.name
      lastModified
      snapshotHash := i.cachedHash
      snapshotFile := i.cachedFile
      lastAnalyzed := ((c.loaded.get? i.descriptor).map (·.lastAnalyzed)).getD now
      dependencies := Dependency.canonical i.dependencies }

/-- The loaded entries with the staged ones in their places. -/
def merged (c : Cache) : CacheEntries :=
  c.loaded.putAll c.staged

/-- Writes the entries with `store`, which takes directory, name and content of a file and says
whether it was written.  What was staged is gone even when writing fails. -/
def flush {m : Type → Type} [Monad m] (store : String → String → ByteArray → m Bool) (c : Cache) :
    m (FlushOutcome × Cache) :=
  match c.directory with
  | none => pure (.unchanged, c)
  | some directory =>
    if c.staged.isEmpty then pure (.unchanged, c)
    else do
      if ← store directory Options.cacheName c.merged.fileText.toUTF8 then
        pure (.persisted, { c with loaded := c.merged, staged := [] })
      else pure (.failed, { c with staged := [] })

end Cache

end SqlSnapshot
