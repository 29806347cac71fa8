import SqlSnapshot.Proofs.Build.Flush

/-!
# Failed flushes

A flush that fails leaves every file as it was, and the cache answers as before.  What was staged is
lost: the next flush finds nothing to write, and only a repetition of the calls since the last flush
brings the cache back to what it was.
-/

namespace SqlSnapshot

open Build

namespace Cache

/-- The cache as it is when nothing was recorded since it was loaded or flushed. -/
def unstaged (c : Cache) : Cache :=
  { c with staged := [] }

variable {c c' : Cache}

theorem unstaged_eq_self (h : c.staged = []) : c.unstaged = c := by
  cases c
  simp_all [unstaged]

@[simp]
theorem unstaged_record (c : Cache) (r : Recording) : (c.record r).unstaged = c.unstaged := by
  have hrecord := foldl_record c [r]
  rw [List.foldl_cons, List.foldl_nil] at hrecord
  rw [hrecord]
  exact eq_of_staged (directory_foldl_stage c _) (answers_foldl_stage c _) (loaded_foldl_stage c _)
    rfl

/-- The caches that there can be: one is loaded, takes calls, and is flushed, any number of times
and on any disk. -/
inductive Reachable : Cache → Prop where
  | new : Reachable {}
  | load (o : Options) (content : Option ByteArray) : Reachable (load o content)
  | record {c : Cache} (r : Recording) : Reachable c → Reachable (c.record r)
  | flush {c c' : Cache} {env : Conditions} {w w' : World} {outcome : FlushOutcome} :
      Reachable c → run (c.flush (replaceFile env)) w = (.ok (outcome, c'), w') → Reachable c'

theorem run_flush_of_no_directory (h : c.directory = none) (env : Conditions) (w : World) :
    run (c.flush (replaceFile env)) w = (.ok (.unchanged, c), w) := by
  rw [Cache.flush, h]
  rfl

/-- A flush leaves nothing staged, unless there is no file to write to. -/
theorem staged_of_flush
    {env : Conditions} {w w' : World} {outcome : FlushOutcome}
    (h : run (c.flush (replaceFile env)) w = (.ok (outcome, c'), w')) :
    c' = c ∨ c'.staged = [] := by
  cases hdirectory : c.directory with
  | none =>
    rw [run_flush_of_no_directory hdirectory] at h
    cases h
    exact Or.inl rfl
  | some directory =>
    rcases flush_cases hdirectory h with ⟨-, houtcome, -⟩ | ⟨-, stored, -, houtcome⟩
    · cases houtcome
      exact Or.inl rfl
    · cases stored <;> cases houtcome <;> exact Or.inr rfl

/-- What is staged was recorded since the cache was loaded or flushed. -/
theorem Reachable.exists_recordings (h : c.Reachable) :
    ∃ calls : List Recording, calls.foldl Cache.record c.unstaged = c := by
  induction h with
  | new => exact ⟨[], rfl⟩
  | load o content => exact ⟨[], rfl⟩
  | record r _ ih =>
    obtain ⟨calls, hcalls⟩ := ih
    refine ⟨calls ++ [r], ?_⟩
    rw [unstaged_record, List.foldl_concat, hcalls]
  | flush _ hflush ih =>
    rcases staged_of_flush hflush with rfl | hstaged
    · exact ih
    · exact ⟨[], unstaged_eq_self hstaged⟩

theorem Reachable.foldl_record (h : c.Reachable) (calls : List Recording) :
    (calls.foldl Cache.record c).Reachable := by
  induction calls generalizing c with
  | nil => exact h
  | cons r calls ih => exact ih (.record r h)

end Cache

/-- The conditions of the sample with a disk that fails. -/
def Conditions.sampleUnwritable : Conditions :=
  { Conditions.calm .sample ⟨5000, 0⟩ with diskFails := fun _ => true }

namespace Build

variable {env : Conditions} {w w' : World} {c c' : Cache}

theorem run_flush_of_unstaged (h : c.staged = []) (env : Conditions) (w : World) :
    run (c.flush (replaceFile env)) w = (.ok (.unchanged, c), w) := by
  cases hdirectory : c.directory with
  | none => exact Cache.run_flush_of_no_directory hdirectory env w
  | some directory =>
    rw [Cache.flush, hdirectory, h]
    rfl

/-- A flush with something to write fails where the disk fails. -/
theorem run_flush_of_diskFails
    {directory : String} (hdirectory : c.directory = some directory) (hstaged : c.staged ≠ [])
    (hfails : env.diskFails w.accesses = true) :
    run (c.flush (replaceFile env)) w =
      (.ok (.failed, c.unstaged), { w with accesses := w.accesses + 1 }) := by
  have hstore : run (replaceFile env directory Options.cacheName c.merged.fileText.toUTF8) w =
      (.ok false, { w with accesses := w.accesses + 1 }) := by
    rw [replaceFile, run_access_eq, if_pos hfails]
  have hsome : c.staged.isEmpty = false := List.isEmpty_eq_false_iff.mpr hstaged
  rw [Cache.flush, hdirectory]
  simp only [hsome]
  refine (run_bind_of_eq_ok hstore _).trans ?_
  rw [Cache.unstaged, hdirectory]
  rfl

/-- A flush that fails keeps every file and what was loaded, but not what was staged.  The next
flush finds nothing to write, whatever the disk does; the calls since the cache was last loaded or
flushed, made once more, bring it back to what it was. -/
theorem flush_failed
    (hc : c.Reachable) (h : run (c.flush (replaceFile env)) w = (.ok (.failed, c'), w')) :
    (∀ l, Disk.KeepsFile l w.disk w'.disk) ∧ c.staged ≠ [] ∧ c' = c.unstaged ∧
      (∀ env' w₁, run (c'.flush (replaceFile env')) w₁ = (.ok (.unchanged, c'), w₁)) ∧
      ∃ calls : List Recording, calls.foldl Cache.record c' = c := by
  cases hdirectory : c.directory with
  | none =>
    rw [Cache.run_flush_of_no_directory hdirectory] at h
    cases h
  | some directory =>
    rcases flush_cases hdirectory h with ⟨-, houtcome, -⟩ | ⟨hstaged, stored, hstore, houtcome⟩
    · cases houtcome
    · cases stored with
      | true => cases houtcome
      | false =>
        cases houtcome
        have hgrows : Disk.Grows (fun _ => False) w.disk w'.disk := replaceFile_eq_false hstore _
        exact ⟨fun l => hgrows.keepsFile not_false, hstaged, rfl, run_flush_of_unstaged rfl,
          hc.exists_recordings⟩

/-- The cache after the sample calls on an empty disk. -/
def sampleRecorded : Cache :=
  sampleCalls.foldl Cache.record (.started .sample World.sample.disk)

theorem reachable_sampleRecorded : sampleRecorded.Reachable :=
  Cache.Reachable.foldl_record (.load _ _) sampleCalls

theorem directory_sampleRecorded :
    sampleRecorded.directory = some Options.sample.cacheDirectory := by decide +kernel

theorem staged_sampleRecorded_ne_nil : sampleRecorded.staged ≠ [] := by decide +kernel

theorem run_flush_sampleUnwritable :
    run (sampleRecorded.flush (replaceFile .sampleUnwritable)) .sample =
      (.ok (.failed, sampleRecorded.unstaged), { World.sample with accesses := 1 }) :=
  run_flush_of_diskFails directory_sampleRecorded staged_sampleRecorded_ne_nil rfl

theorem flush_failed_sample :
    ∃ c' w', run (sampleRecorded.flush (replaceFile .sampleUnwritable)) .sample =
        (.ok (.failed, c'), w') ∧
      (∀ l, Disk.KeepsFile l World.sample.disk w'.disk) ∧ c' = sampleRecorded.unstaged := by
  obtain ⟨hfiles, -, hcache, -⟩ := flush_failed reachable_sampleRecorded run_flush_sampleUnwritable
  exact ⟨_, _, run_flush_sampleUnwritable, hfiles, hcache⟩

/-- After a failed flush the disk works again, and the next flush leaves it without the cache file
that it would have written in place of the failed one. -/
theorem flush_failed_forgets :
    ∃ c₁ w₁ c₂ w₂,
      run (sampleRecorded.flush (replaceFile .sampleUnwritable)) .sample = (.ok (.failed, c₁), w₁) ∧
      c₁.staged ≠ sampleRecorded.staged ∧
      run (c₁.flush (replaceFile (.calm .sample ⟨5000, 0⟩))) w₁ = (.ok (.unchanged, c₁), w₁) ∧
      run (sampleRecorded.flush (replaceFile (.calm .sample ⟨5000, 0⟩))) .sample =
        (.ok (.persisted, c₂), w₂) := by
  obtain ⟨outcome, c₂, w₂, hstored⟩ :=
    exists_run_flush (.calm .sample ⟨5000, 0⟩) sampleRecorded .sample
  have hpersisted : outcome = .persisted := by
    have hnot := flush_ne_failed ((Conditions.calm_calm _ _).diskFails _) Disk.takes_cache_sample
      directory_sampleRecorded hstored
    rcases flush_cases directory_sampleRecorded hstored with ⟨hnone, -⟩ | ⟨-, stored, -, houtcome⟩
    · exact absurd hnone staged_sampleRecorded_ne_nil
    · cases stored with
      | true => exact congrArg Prod.fst houtcome
      | false => exact absurd (congrArg Prod.fst houtcome) hnot
  subst hpersisted
  exact ⟨_, _, _, _, run_flush_sampleUnwritable, staged_sampleRecorded_ne_nil.symm,
    run_flush_of_unstaged rfl _ _, hstored⟩

end Build

end SqlSnapshot
