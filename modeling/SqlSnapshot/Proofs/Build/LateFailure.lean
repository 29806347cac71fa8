import SqlSnapshot.Proofs.Build.Interrupted

/-!
# Builds that fail after their cache is written

The cache is written when everything else is on the disk, but a build still reads the directory of
its snapshots after that.  A disk that fails there is the only way in which a build ends in an error
and leaves another cache file than it found.
-/

namespace SqlSnapshot

namespace Build

variable {env : Conditions} {o : Options} {w w' : World}

/-- The build wrote its cache, and then could not read the directory of its snapshots. -/
structure FailedLate (env : Conditions) (o : Options) (w w' : World) (e : BuildError) : Prop where
  error : e = .io o.schemaDirectory
  moment : ∃ b w₁, run (untilFlushed env o) w = (.ok b, w₁) ∧ b.flushed = .persisted ∧
    env.diskFails w₁.accesses = true ∧ w'.disk = w₁.disk

/-- A cache that is not written leaves the disk as it was, but for directories. -/
theorem writesSnapshots_flushCache
    {written : WrittenSnapshots} {outcome : FlushOutcome}
    (hdirectory : w.cache.directory = some o.cacheDirectory)
    (h : run (flushCache env written) w = (.ok outcome, w')) (hlost : outcome ≠ .persisted) :
    w.WritesSnapshots o w' := by
  cases outcome with
  | persisted => contradiction
  | failed => exact flushCache_eq_failed hdirectory h _
  | unchanged =>
    rcases flushCache_cases hdirectory h with ⟨-, -, hdisk⟩ | ⟨stored, w₁, -, houtcome, -⟩
    · exact World.writesSnapshots_of_eq hdisk
    · cases stored <;> cases houtcome

/-- Only writing the cache changes the cache file. -/
theorem writesSnapshots_of_not_persisted
    {b : CompletedBuild} (h : run (untilFlushed env o) w = (.ok b, w'))
    (hlost : b.flushed ≠ .persisted) :
    w.WritesSnapshots o w' := by
  obtain ⟨⟨found, results⟩, w₁, hprepare, h⟩ := run_bind_eq_ok.mp h
  obtain ⟨⟨written, issues⟩, w₂, hwrite, h⟩ := run_bind_eq_ok.mp h
  obtain ⟨flushed, w₃, hflush, h⟩ := run_bind_eq_ok.mp h
  cases h
  obtain ⟨content, hprepared⟩ := prepare_eq_ok hprepare
  obtain ⟨-, -, -, -, hcache, -⟩ := writePhase_eq_ok hprepared.tablesAgree hwrite
  have hprepares : Leaves (World.WritesSnapshots o) (prepare env o) :=
    leaves_prepare (fun _ _ => World.writesSnapshots_of_eq) o
  have hwrites : w₁.WritesSnapshots o w₂ := (writesSnapshots_writePhase env o results).of_run hwrite
  have hkeeps : w₂.WritesSnapshots o w' :=
    writesSnapshots_flushCache (hcache ▸ hprepared.cacheDirectory) hflush hlost
  exact trans_of _ (trans_of _ (hprepares.of_run hprepare) hwrites) hkeeps

/-- A directory that is there is read unless the disk fails. -/
theorem fingerprint_eq_error
    {path : String} {e : BuildError} (hreadable : w.disk.documents path ≠ .error .refused)
    (h : run (Build.fingerprint env path Snapshot.fingerprint) w = (.error e, w')) :
    e = .io path ∧ env.diskFails w.accesses = true ∧ w'.disk = w.disk := by
  have herror : e = .io path := raises_fingerprint env path _ w e w' h
  have hdisk : w'.disk = w.disk :=
    (leaves_fingerprint (R := World.KeepsDisk) (fun _ _ hdisk => hdisk) path _).of_run h
  refine ⟨herror, ?_, hdisk⟩
  by_contra hworks
  have hworks : env.diskFails w.accesses = false := by simpa using hworks
  rcases run_bind_eq_error.mp h with haccess | ⟨outcome, w₁, haccess, h⟩
  · exact raises_access (E := fun _ => False) _ _ w e w' haccess
  · rcases (access_eq_ok haccess).1 with ⟨hfails, -, -⟩ | ⟨-, houtcome, -⟩
    · rw [hworks] at hfails
      contradiction
    · subst houtcome
      split at h
      · cases h
      · cases h
      · rename_i hrefused
        exact hreadable hrefused

/-- A build that ends in an error leaves the cache file as it found it, whatever failed or cancelled
it, with the one exception of a build that fails late. -/
theorem error_keeps_cacheFile
    {e : BuildError} (h : run (snapshots env o) w = (.error e, w')) :
    w.disk.KeepsFile (w.disk.place o.cacheFile) w'.disk ∨ FailedLate env o w w' e := by
  rw [snapshots_eq_error_iff, complete_eq] at h
  rcases run_bind_eq_error.mp h with hbuild | ⟨b, w₁, hbuild, h⟩
  · exact Or.inl (writesSnapshots_untilFlushed hbuild (by simp)).keepsFile_cacheFile
  · rcases run_bind_eq_error.mp h with hfingerprint | ⟨_, w₂, -, h⟩
    · have hdisk : w'.disk = w₁.disk :=
        (leaves_fingerprint (R := World.KeepsDisk) (fun _ _ hdisk => hdisk) _ _).of_run hfingerprint
      by_cases hflushed : b.flushed = .persisted
      · obtain ⟨content, hcompleted⟩ := untilFlushed_eq_ok hbuild (by simp [hflushed])
        obtain ⟨herror, hfails, -⟩ := fingerprint_eq_error hcompleted.readable hfingerprint
        exact Or.inr ⟨herror, b, w₁, hbuild, hflushed, hfails, hdisk⟩
      · have hwrites := writesSnapshots_of_not_persisted hbuild hflushed
        exact Or.inl (hdisk ▸ hwrites.keepsFile_cacheFile)
    · cases h

/-- While the disk does not fail, every error leaves the cache file. -/
theorem error_keeps_cacheFile_of_diskWorks
    (hdisk : ∀ n, env.diskFails n = false) {e : BuildError}
    (h : run (snapshots env o) w = (.error e, w')) :
    w.disk.KeepsFile (w.disk.place o.cacheFile) w'.disk := by
  rcases error_keeps_cacheFile h with hkept | ⟨-, b, w₁, -, -, hfails, -⟩
  · exact hkept
  · rw [hdisk] at hfails
    contradiction

end Build

/-- A project with one procedure, whose definition is not given out. -/
def Catalog.hidden : Catalog where
  procedures := [⟨⟨"audit", "Log", 3, ⟨3000, 0⟩⟩, none⟩]

/-- One access to the disk fails. -/
def Conditions.sampleFailing (access : Nat) : Conditions where
  catalog := .hidden
  now := ⟨5000, 0⟩
  diskFails := fun n => n == access

namespace Build

/-- The disk fails when the snapshot is replaced: the cache file is still missing. -/
theorem error_keeps_cacheFile_sample :
    ∃ w', run (snapshots (.sampleFailing 3) .sample) .sample =
        (.error (.io "/p/.spocr/schema/audit.Log.json"), w') ∧
      Disk.sample.KeepsFile (Disk.sample.place Options.sample.cacheFile) w'.disk := by
  have houtcome : (run (snapshots (.sampleFailing 3) .sample) .sample).1 =
      .error (.io "/p/.spocr/schema/audit.Log.json") := by decide +kernel
  have hrun : run (snapshots (.sampleFailing 3) .sample) .sample =
      (_, (run (snapshots (.sampleFailing 3) .sample) .sample).2) := Prod.ext houtcome rfl
  refine ⟨_, hrun, ?_⟩
  rcases error_keeps_cacheFile hrun with hkept | hlate
  · exact hkept
  · exact absurd hlate.error (by decide +kernel)

/-- The disk fails when the directory of the snapshots is read: the cache file, which was missing,
is there. -/
theorem error_after_flush :
    ∃ w', run (snapshots (.sampleFailing 5) .sample) .sample =
        (.error (.io Options.sample.schemaDirectory), w') ∧
      ¬ Disk.sample.KeepsFile (Disk.sample.place Options.sample.cacheFile) w'.disk := by
  have hplace : Disk.sample.place Options.sample.cacheFile =
      ["p", ".spocr", "cache", "procedures.json"] := by decide +kernel
  have hmissing :
      (Disk.sample.node? ["p", ".spocr", "cache", "procedures.json"]).isSome = false := by
    decide +kernel
  have hends : (run (snapshots (.sampleFailing 5) .sample) .sample).1 =
        .error (.io Options.sample.schemaDirectory) ∧
      ((run (snapshots (.sampleFailing 5) .sample) .sample).2.disk.node?
        ["p", ".spocr", "cache", "procedures.json"]).isSome = true ∧
      (run (snapshots (.sampleFailing 5) .sample) .sample).2.disk.isDirectory
        ["p", ".spocr", "cache", "procedures.json"] = false := by
    decide +kernel
  generalize run (snapshots (.sampleFailing 5) .sample) .sample = ended at hends ⊢
  obtain ⟨outcome, w'⟩ := ended
  obtain ⟨rfl, hsome, hfile⟩ := hends
  refine ⟨w', rfl, fun hkept => ?_⟩
  rw [hplace] at hkept
  obtain ⟨node, hnode⟩ := Option.isSome_iff_exists.mp hsome
  cases node with
  | directory =>
    rw [Disk.isDirectory_iff.mpr hnode] at hfile
    cases hfile
  | file content =>
    rw [(hkept content).mp hnode] at hmissing
    cases hmissing

end Build

end SqlSnapshot
