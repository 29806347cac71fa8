import SqlSnapshot.Proofs.Build.Success
import SqlSnapshot.Proofs.Cache.LastWrite

/-!
# What a flush leaves

A flush never fails as a step.  It writes what the cache holds, loaded or staged, or leaves the disk
alone if nothing is staged.  From this and from what the calls before it stage, a cache that is
started on the disk afterwards answers as a map in which the last write wins.
-/

namespace SqlSnapshot

namespace Build

variable {env : Conditions} {o : Options} {w w' : World} {c : Cache}

theorem exists_run_flush
    (env : Conditions) (c : Cache) (w : World) :
    ∃ outcome c' w', run (c.flush (replaceFile env)) w = (.ok (outcome, c'), w') := by
  unfold Cache.flush
  split
  · exact ⟨_, _, w, run_pure _ w⟩
  · split
    · exact ⟨_, _, w, run_pure _ w⟩
    · rename_i directory _ _
      obtain ⟨stored, w', hstore, -⟩ := exists_run_replaceFile env directory Options.cacheName
        c.merged.fileText.toUTF8 w
      cases stored with
      | false => exact ⟨_, _, w', (run_bind_of_eq_ok hstore _).trans rfl⟩
      | true => exact ⟨_, _, w', (run_bind_of_eq_ok hstore _).trans rfl⟩

/-- What a cache file holds after a flush: what the cache held, loaded or staged. -/
theorem flush_eq_ok
    {outcome : FlushOutcome} {c' : Cache} (hc : c.IsWellFormed)
    (hdirectory : c.directory = some o.cacheDirectory)
    (hloaded : CacheEntries.ofFile (w.disk.contentOf o.cacheFile).toOption = c.loaded)
    (h : run (c.flush (replaceFile env)) w = (.ok (outcome, c'), w'))
    (hflushed : outcome ≠ .failed) :
    CacheEntries.ofFile (w'.disk.contentOf o.cacheFile).toOption = c.merged ∧
      (outcome = .persisted ↔ c.staged ≠ []) ∧ (outcome ≠ .persisted → w' = w) := by
  rcases flush_cases hdirectory h with ⟨hstaged, houtcome, rfl⟩ |
    ⟨hstaged, stored, hstore, houtcome⟩
  · cases houtcome
    refine ⟨?_, by simp [hstaged], fun _ => rfl⟩
    rw [hloaded, Cache.merged, hstaged]
    rfl
  · cases stored with
    | false =>
      cases houtcome
      exact absurd rfl hflushed
    | true =>
      cases houtcome
      obtain ⟨hreplaced, -⟩ := replaceFile_eq_ok hstore
      obtain ⟨-, hcontent⟩ := Disk.replaceFile_eq_ok o.isPlain_stateDirectory
        Options.isName_cache Options.isName_cacheName hreplaced
      have hfile : w'.disk.contentOf o.cacheFile = .ok c.merged.fileText.toUTF8 := hcontent
      refine ⟨?_, by simp [hstaged], by simp⟩
      rw [hfile]
      exact CacheEntries.ofFile_fileText hc.merged

/-- A flush does not fail where the disk takes the cache file. -/
theorem flush_ne_failed
    {outcome : FlushOutcome} {c' : Cache} (hworks : env.diskFails w.accesses = false)
    (htakes : w.disk.Takes o.cacheDirectory Options.cacheName)
    (hdirectory : c.directory = some o.cacheDirectory)
    (h : run (c.flush (replaceFile env)) w = (.ok (outcome, c'), w')) :
    outcome ≠ .failed := by
  rcases flush_cases hdirectory h with ⟨-, houtcome, -⟩ | ⟨-, stored, hstore, houtcome⟩
  · cases houtcome
    simp
  · obtain ⟨w₁, hstored, -⟩ := exists_replaceFile_eq_ok hworks htakes c.merged.fileText.toUTF8
    rw [hstored] at hstore
    cases hstore
    cases houtcome
    simp

/-- The cache is a map in which the last write of a procedure wins.  Whatever the file holds at
first and whatever is recorded, the flush does not fail if the disk takes the file.  Unless it
fails, a cache that is started after it answers with the last writes, and the file is written
exactly if some procedure ends with another fingerprint than it was loaded with.  What the flush
does depends on the order of the calls only within each procedure. -/
theorem flush_last_writes
    (env : Conditions) (o : Options) (w : World) {calls : List Recording}
    (hdated : ∀ r ∈ calls, r.IsDated) :
    (∃ outcome c' w', run ((calls.foldl Cache.record (.started o w.disk)).flush
        (replaceFile env)) w = (.ok (outcome, c'), w') ∧
      (env.diskFails w.accesses = false → w.disk.Takes o.cacheDirectory Options.cacheName →
        outcome ≠ .failed) ∧
      (outcome ≠ .failed →
        (∀ o' : Options, o'.projectRoot = o.projectRoot → o'.noCache = false → ∀ d,
          (Cache.started o' w'.disk).get? d =
            Recording.lastWrite? (Cache.started o w.disk).loaded calls d) ∧
        (outcome = .persisted ↔
          ∃ d e, Recording.last? (Cache.started o w.disk).loaded calls d = some e ∧
            ∀ old, (Cache.started o w.disk).loaded.get? d = some old →
              old.sameFingerprint e = false) ∧
        (outcome ≠ .persisted → w' = w))) ∧
    ∀ calls' : List Recording,
      (∀ d, calls'.filter (·.descriptor.same d) = calls.filter (·.descriptor.same d)) →
      run ((calls'.foldl Cache.record (.started o w.disk)).flush (replaceFile env)) w =
        run ((calls.foldl Cache.record (.started o w.disk)).flush (replaceFile env)) w := by
  have hstart : (Cache.started o w.disk).IsWellFormed := Cache.isWellFormed_load o _
  refine ⟨?_, ?_⟩
  · obtain ⟨outcome, c', w', hrun⟩ :=
      exists_run_flush env (calls.foldl Cache.record (.started o w.disk)) w
    have hrecorded := Cache.foldl_record (.started o w.disk) calls
    have hdirectory : (calls.foldl Cache.record (.started o w.disk)).directory =
        some o.cacheDirectory := by
      rw [hrecorded, Cache.directory_foldl_stage, Cache.directory_started]
    have hwellFormed : (calls.foldl Cache.record (.started o w.disk)).IsWellFormed := by
      rw [hrecorded]
      exact hstart.foldl_stage (Recording.isWellFormed_entries hdated hstart.loaded)
    refine ⟨outcome, c', w', hrun,
      fun hworks htakes => flush_ne_failed hworks htakes hdirectory hrun, fun hflushed => ?_⟩
    obtain ⟨hfile, hpersisted, huntouched⟩ := flush_eq_ok hwellFormed hdirectory
      (by rw [hrecorded, Cache.loaded_foldl_stage, Cache.loaded_started]) hrun hflushed
    refine ⟨?_, ?_, huntouched⟩
    · intro o' hroot hanswers d
      rw [Cache.get?_started_of_contentOf hroot hanswers hfile,
        Cache.get?_merged_foldl_record hstart rfl hdated]
    · rw [hpersisted, Cache.staged_foldl_record_ne_nil_iff rfl]
  · intro calls' hcalls
    rw [Cache.foldl_record_congr rfl hcalls]

/-- An analysis of a procedure, and a later call that spells its name otherwise. -/
def sampleProcedureCalls : List Recording :=
  [.analysis ⟨5000, 0⟩ {
      descriptor := ⟨"dbo", "P"⟩, content := {}, lastModified := some ⟨3000, 0⟩ },
    .reuse ⟨6000, 0⟩ {
      descriptor := ⟨"DBO", "p"⟩, decision := .reuse, lastModified := some ⟨4000, 0⟩ }]

/-- An analysis of another procedure. -/
def sampleOtherCall : Recording :=
  .analysis ⟨5500, 0⟩ {
    descriptor := ⟨"sales", "Q"⟩, content := {}, lastModified := some ⟨2000, 0⟩ }

def sampleCalls : List Recording :=
  sampleProcedureCalls ++ [sampleOtherCall]

theorem isDated_sampleCalls (r : Recording) (hr : r ∈ sampleCalls) : r.IsDated := by
  simp only [sampleCalls, sampleProcedureCalls, sampleOtherCall, List.cons_append,
    List.nil_append, List.mem_cons, List.not_mem_nil, or_false] at hr
  rcases hr with rfl | rfl | rfl
  all_goals
    refine ⟨by decide +kernel, ?_, by simp [Recording.dependencies]⟩
    rintro t ⟨⟩
    decide +kernel

/-- Each procedure has the same calls if those of the other one come first. -/
theorem filter_sampleCalls (d : Descriptor) :
    (sampleOtherCall :: sampleProcedureCalls).filter (·.descriptor.same d) =
      sampleCalls.filter (·.descriptor.same d) := by
  rw [sampleCalls, List.filter_append]
  cases hother : sampleOtherCall.descriptor.same d with
  | false =>
    simp only [List.filter_cons, List.filter_nil, hother, Bool.false_eq_true, if_false,
      List.append_nil]
  | true =>
    have hnone : sampleProcedureCalls.filter (·.descriptor.same d) = [] := by
      rw [List.filter_eq_nil_iff]
      intro r hr
      rw [← Descriptor.same_congr_right hother]
      revert r
      decide +kernel
    simp only [List.filter_cons, List.filter_nil, hother, hnone, if_true, List.nil_append]

theorem flush_last_writes_sample :
    ∃ c' w', run ((sampleCalls.foldl Cache.record (.started .sample World.sample.disk)).flush
        (replaceFile (.calm .sample ⟨5000, 0⟩))) .sample = (.ok (.persisted, c'), w') ∧
      (Cache.started .sample w'.disk).get? ⟨"dbo", "P"⟩ =
        some ⟨"DBO", "p", ⟨4000, 0⟩, none, none, ⟨6000, 0⟩, []⟩ ∧
      (Cache.started .sample w'.disk).get? ⟨"sales", "Q"⟩ =
        some ⟨"sales", "Q", ⟨2000, 0⟩, none, none, ⟨5500, 0⟩, []⟩ ∧
      run (((sampleOtherCall :: sampleProcedureCalls).foldl Cache.record
        (.started .sample World.sample.disk)).flush (replaceFile (.calm .sample ⟨5000, 0⟩)))
          .sample = (.ok (.persisted, c'), w') := by
  obtain ⟨⟨outcome, c', w', hrun, hstored, hflushed⟩, hreordered⟩ :=
    flush_last_writes (.calm .sample ⟨5000, 0⟩) .sample .sample isDated_sampleCalls
  obtain ⟨hanswers, hpersisted, -⟩ :=
    hflushed (hstored ((Conditions.calm_calm _ _).diskFails _) Disk.takes_cache_sample)
  have hloaded : (Cache.started .sample World.sample.disk).loaded = [] := by decide +kernel
  rw [hloaded] at hanswers hpersisted
  have hlast : Recording.last? [] sampleCalls ⟨"dbo", "P"⟩ =
      some ⟨"DBO", "p", ⟨4000, 0⟩, none, none, ⟨6000, 0⟩, []⟩ := by decide +kernel
  have hother : Recording.last? [] sampleCalls ⟨"sales", "Q"⟩ =
      some ⟨"sales", "Q", ⟨2000, 0⟩, none, none, ⟨5500, 0⟩, []⟩ := by decide +kernel
  cases hpersisted.mpr ⟨_, _, hlast, by simp⟩
  refine ⟨c', w', hrun, ?_, ?_, (hreordered _ filter_sampleCalls).trans hrun⟩
  · rw [hanswers .sample rfl rfl, Recording.lastWrite?, hlast]
    rfl
  · rw [hanswers .sample rfl rfl, Recording.lastWrite?, hother]
    rfl

end Build

end SqlSnapshot
