import SqlSnapshot.Build.Effects
import SqlSnapshot.Snapshot

/-!
# Writing snapshots

Every snapshot is compared with the file that is there and written only where the two differ, so
that the files of unchanged procedures are not touched.
-/

namespace SqlSnapshot

/-- What became of a batch of snapshots, each with the name and the digest of its file. -/
structure WrittenSnapshots where
  filesWritten : Nat := 0
  filesUnchanged : Nat := 0
  updated : List Analysis := []
  unchanged : List Analysis := []
deriving DecidableEq, Inhabited

namespace WrittenSnapshots

def addUnchanged (s : WrittenSnapshots) (a : Analysis) : WrittenSnapshots :=
  { s with filesUnchanged := s.filesUnchanged + 1, unchanged := a :: s.unchanged }

def addUpdated (s : WrittenSnapshots) (a : Analysis) : WrittenSnapshots :=
  { s with filesWritten := s.filesWritten + 1, updated := a :: s.updated }

end WrittenSnapshots

namespace Build

/-- The analysis with the name and the digest of its snapshot. -/
def withSnapshot (a : Analysis) : Analysis :=
  { a with
    snapshotHash := some (Sha256.hex (Snapshot.ofAnalysis a).canonicalBytes)
    snapshotFile := some (Snapshot.fileName a.descriptor) }

/-- Writes the snapshots in order; the first that cannot be written ends the batch. -/
def writeEach (env : Conditions) (directory : String) : List Analysis → Build WrittenSnapshots
  | [] => return {}
  | a :: as => do
    let bytes := (Snapshot.ofAnalysis a).canonicalBytes
    let name := Snapshot.fileName a.descriptor
    let path := Path.join directory name
    if (← contentOf env path) == some bytes then
      let rest ← writeEach env directory as
      return rest.addUnchanged (withSnapshot a)
    else
      if ← replaceFile env directory name bytes then
        let rest ← writeEach env directory as
        return rest.addUpdated (withSnapshot a)
      else throw (.io path)

def writeSnapshots (env : Conditions) (o : Options) (as : List Analysis) :
    Build WrittenSnapshots := do
  if ← makeDirectories env o.schemaDirectory then writeEach env o.schemaDirectory as
  else throw (.io o.schemaDirectory)

end Build

end SqlSnapshot
