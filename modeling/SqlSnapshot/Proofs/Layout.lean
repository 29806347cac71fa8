import Mathlib.Tactic.ByContra
import SqlSnapshot.Options
import SqlSnapshot.Proofs.Disk.Files
import SqlSnapshot.Snapshot

/-!
# Where the files of a project lie

The snapshots lie directly in the schema directory, and the cache file lies elsewhere.  Snapshots of
different names lie at different places.
-/

namespace SqlSnapshot

/-! ## Names of snapshots -/

namespace Snapshot

theorem isName_fileName (d : Descriptor) : Path.IsName (fileName d) := by
  have htext : (fileName d).toList =
      sanitize d.schema ++ '.' :: sanitize d.name ++ ".json".toList := by
    rw [fileName, String.toList_ofList]
  have hlength : 5 ≤ (fileName d).toList.length := by
    rw [htext]
    simp
    omega
  have hslash : ∀ s : String, '/' ∉ sanitize s := by
    intro s hmem
    obtain ⟨c, -, hc⟩ := List.mem_map.mp hmem
    split at hc
    · exact absurd hc (by decide)
    · rename_i hsafe
      rw [hc] at hsafe
      exact hsafe (by decide)
  constructor
  · intro h
    simp [h] at hlength
  · rw [htext]
    simp only [List.cons_append, List.append_assoc, List.mem_append, List.mem_cons, not_or]
    exact ⟨hslash d.schema, by decide, hslash d.name, by decide⟩
  · intro h
    simp [h] at hlength
  · intro h
    simp [h] at hlength

end Snapshot

namespace Options

variable (o : Options)

theorem isPlain_stateDirectory : Path.IsPlain o.stateDirectory :=
  Path.isPlain_join _ ⟨by decide, by decide, by decide, by decide⟩

theorem isName_cache : Path.IsName "cache" := ⟨by decide, by decide, by decide, by decide⟩

theorem isName_schema : Path.IsName "schema" := ⟨by decide, by decide, by decide, by decide⟩

theorem isName_cacheName : Path.IsName cacheName := ⟨by decide, by decide, by decide, by decide⟩

theorem isPlain_cacheDirectory : Path.IsPlain o.cacheDirectory :=
  Path.isPlain_join _ isName_cache

theorem isPlain_schemaDirectory : Path.IsPlain o.schemaDirectory :=
  Path.isPlain_join _ isName_schema

/-- The path of the file that holds the snapshot of a procedure. -/
def snapshotPath (d : Descriptor) : String :=
  Path.join o.schemaDirectory (Snapshot.fileName d)

theorem cacheFile_congr
    {o o' : Options} (h : o.projectRoot = o'.projectRoot) :
    o.cacheFile = o'.cacheFile := by
  simp only [cacheFile, cacheDirectory, stateDirectory, h]

theorem snapshotPath_congr
    {o o' : Options} (h : o.projectRoot = o'.projectRoot) (d : Descriptor) :
    o.snapshotPath d = o'.snapshotPath d := by
  simp only [snapshotPath, schemaDirectory, stateDirectory, h]

theorem place_cacheFile
    (d : Disk) :
    d.place o.cacheFile = d.place o.stateDirectory ++ ["cache", cacheName] := by
  rw [cacheFile, Disk.place_join d o.isPlain_cacheDirectory isName_cacheName,
    cacheDirectory, Disk.place_join d o.isPlain_stateDirectory isName_cache, List.append_assoc]
  rfl

theorem place_snapshotPath
    (d : Disk) (p : Descriptor) :
    d.place (o.snapshotPath p) = d.place o.stateDirectory ++ ["schema", Snapshot.fileName p] := by
  rw [snapshotPath, Disk.place_join d o.isPlain_schemaDirectory (Snapshot.isName_fileName p),
    schemaDirectory,
    Disk.place_join d o.isPlain_stateDirectory isName_schema, List.append_assoc]
  rfl

theorem place_cacheFile_ne
    (d : Disk) (p : Descriptor) :
    d.place o.cacheFile ≠ d.place (o.snapshotPath p) := by
  rw [place_cacheFile, place_snapshotPath]
  intro h
  have htail := List.append_cancel_left h
  simp at htail

theorem place_snapshotPath_ne
    (d : Disk) {p q : Descriptor} (h : Snapshot.fileName p ≠ Snapshot.fileName q) :
    d.place (o.snapshotPath p) ≠ d.place (o.snapshotPath q) := by
  rw [place_snapshotPath, place_snapshotPath]
  intro heq
  have htail := List.append_cancel_left heq
  simp only [List.cons.injEq, true_and, and_true] at htail
  exact h htail

theorem fileName_eq_of_place
    (d : Disk) {p q : Descriptor} (h : d.place (o.snapshotPath p) = d.place (o.snapshotPath q)) :
    Snapshot.fileName p = Snapshot.fileName q := by
  by_contra hne
  exact o.place_snapshotPath_ne d hne h

end Options

end SqlSnapshot
