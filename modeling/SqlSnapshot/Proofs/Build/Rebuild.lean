import SqlSnapshot.Proofs.Build.Recorded
import SqlSnapshot.Proofs.Build.Success

/-!
# Building again

A build whose cache is not lost leaves a project that is up to date: the cache file describes every
selected procedure as it is, and its snapshot is there.  A build of such a project succeeds and
changes nothing.
-/

namespace SqlSnapshot

/-- The cache file describes all selected procedures as they are, and their snapshots are there. -/
def Catalog.IsUpToDate (c : Catalog) (o : Options) (d : Disk) : Prop :=
  ∀ p ∈ c.selectedRows o, ∃ bytes e, d.contentOf o.cacheFile = .ok bytes ∧
    (CacheEntries.ofFile (some bytes)).get? p.descriptor = some e ∧
    e.lastModified = p.modified ∧ e.dependencies = c.collectedDependencies p ∧
    e.Holds o d p (c.collectedDependencies p)

theorem Timestamp.before_self (t : Timestamp) : t.before t = false := by
  simp [before]

namespace Build

variable {env env₁ env₂ : Conditions} {o : Options} {w w₁ w₂ w₁' : World} {b : CompletedBuild}
  {found : Collection} {content : Option ByteArray} {d : Disk}

theorem Completed.isUpToDate
    (h : Completed env o w content b d) (hdated : env.catalog.IsDated) (hnow : env.now.IsInstant) :
    env.catalog.IsUpToDate o d := by
  intro p hp
  obtain ⟨i, hi, hdescribes⟩ := exists_right_of_forall₂ h.selected.described hp
  obtain ⟨bytes, e, hbytes, hentry, hdate, -, hfile, hdependencies⟩ :=
    h.exists_cached hdated hnow hi
  have hmodified : e.lastModified = p.modified :=
    Option.some.inj (hdate.symm.trans hdescribes.lastModified)
  rw [hdescribes.dependencies] at hdependencies
  refine ⟨bytes, e, hbytes, hdescribes.descriptor ▸ hentry, hmodified, hdependencies, ?_⟩
  rw [CacheEntry.holds_iff, hmodified, hdependencies, hfile]
  exact ⟨p.modified.before_self, env.catalog.canonical_collectedDependencies p,
    h.isFile_recordedFile hi⟩

/-! ## Builds of projects that are up to date -/

theorem Selected.reuses_of_isUpToDate
    (h : Selected env o w content found) (hdisk : ∀ n, env.diskFails n = false)
    (hcache : o.noCache = false) (hupToDate : env.catalog.IsUpToDate o w.disk) :
    (∀ i ∈ found.chosen, i.decision = .reuse) ∧
      (((found.decided .reuse).filterMap
        (Cache.reuseRecord? (Cache.load o content).loaded env.now)).foldl Cache.stage
          (Cache.load o content)).staged = [] := by
  have hentry : ∀ i ∈ found.chosen, ∃ e, (Cache.load o content).loaded.get? i.descriptor = some e ∧
      i.decision = .reuse ∧ ∀ record, Cache.reuseRecord? (Cache.load o content).loaded env.now i =
        some record → record.descriptor = i.descriptor ∧ e.fingerprint = record.fingerprint := by
    intro i hi
    obtain ⟨p, hp, hdescribes⟩ := exists_left_of_forall₂ h.described hi
    obtain ⟨bytes, e, hbytes, hentry, hmodified, hdependencies, hholds⟩ := hupToDate p hp
    have hloaded : (Cache.load o content).loaded.get? p.descriptor = some e := by
      rw [← hentry, h.unread hdisk, hbytes]
      rfl
    have hlookup : (Cache.load o content).lookup? o p.descriptor = some e := by
      rw [Cache.lookup?_load hcache]
      exact hloaded
    rw [hlookup] at hdescribes
    refine ⟨e, hdescribes.descriptor ▸ hloaded, ?_, ?_⟩
    · rcases hdescribes.chosen with hanalyze | hreuse
      · have hnot := hdescribes.analyzed hdisk hanalyze e rfl
        rw [hdescribes.dependencies] at hnot
        exact absurd hholds hnot
      · exact hreuse
    · intro record hrecord
      rw [Cache.reuseRecord?, hdescribes.lastModified, Option.map_some] at hrecord
      rw [← Option.some.inj hrecord]
      refine ⟨rfl, ?_⟩
      simp only [CacheEntry.fingerprint, hdescribes.cachedHash, hdescribes.cachedFile,
        hdescribes.dependencies, Option.bind_some, hmodified, hdependencies,
        Catalog.canonical_collectedDependencies]
  constructor
  · intro i hi
    obtain ⟨e, -, hreuse, -⟩ := hentry i hi
    exact hreuse
  · refine Cache.staged_foldl_stage_of_repeats ?_ rfl
    intro record hrecord
    obtain ⟨i, hi, hrecorded⟩ := List.mem_filterMap.mp hrecord
    obtain ⟨e, hloaded, -, hrepeats⟩ := hentry i (mem_decided_reuse_iff.mp hi).1
    obtain ⟨hdescriptor, hsame⟩ := hrepeats record hrecorded
    exact ⟨e, hdescriptor ▸ hloaded, hsame⟩

theorem exists_writePhase_nil_eq_ok
    (hcalm : env.Calm) (hw : w.cancelled = false) (hthere : w.disk.HasDirectory o.schemaDirectory) :
    ∃ w', run (writePhase env o []) w = (.ok ({}, []), w') ∧ w'.cancelled = false ∧
      w'.disk = w.disk ∧ w'.cache = w.cache ∧ w'.calls = w.calls := by
  have hwrite : run (writeSnapshots env o []) w =
      (.ok {}, { w with accesses := w.accesses + 1 }) := by
    rw [writeSnapshots, run_bind_of_eq_ok (run_makeDirectories hcalm.diskFails hthere)]
    rfl
  obtain ⟨_, w₁, hreport, hw₁⟩ := succeeds_report (hcalm.cancelsAfter .write) 0
    (some s!"{0} written, {0} unchanged") { w with accesses := w.accesses + 1 } hw
  obtain ⟨_, w₂, hcheck, hw₂⟩ := succeeds_checkCancelled .write w₁ hw₁
  have hasks : World.Asks (fun _ => False) { w with accesses := w.accesses + 1 } w₁ :=
    report_eq_ok hreport
  have hsame := checkCancelled_eq_ok hcheck
  refine ⟨w₂, ?_, hw₂, hsame ▸ hasks.disk, hsame ▸ hasks.cache,
    hsame ▸ hasks.calls_eq fun _ => not_false⟩
  rw [writePhase, enrichAll, run_bind_of_eq_ok (run_pure _ w)]
  dsimp only
  rw [run_bind_of_eq_ok hwrite]
  exact (run_bind_of_eq_ok hreport _).trans (run_bind_of_eq_ok hcheck _)

/-- A build of a project that is up to date reuses everything, asks for no content, and leaves the
disk as it is. -/
theorem exists_complete_of_isUpToDate
    (hcalm : env.Calm) (hw : w.cancelled = false) (hcache : o.noCache = false)
    (hupToDate : env.catalog.IsUpToDate o w.disk) (hthere : w.disk.HasDirectory o.schemaDirectory)
    (hreadable : w.disk.documents o.schemaDirectory ≠ .error .refused) :
    ∃ b content w' asked, run (complete env o) w = (.ok b, w') ∧
      Selected env o w content b.found ∧ b.found.decided .analyze = [] ∧ b.written = {} ∧
      b.flushed = .unchanged ∧ b.fingerprint = w.disk.fingerprint o.schemaDirectory ∧
      w'.calls = w.calls ++ asked ∧ (∀ call ∈ asked, call.readsContent = false) ∧
      w'.disk = w.disk := by
  obtain ⟨found, w₁, hselect, hw₁⟩ := succeeds_selectPhase hcalm o w hw
  obtain ⟨content, hselected, hdisk₁, hcache₁, -, asked, hasked, hallowed⟩ :=
    selectPhase_eq_ok hselect
  obtain ⟨hreuses, hstaged⟩ :=
    hselected.reuses_of_isUpToDate hcalm.diskFails hcache hupToDate
  have hnone : found.decided .analyze = [] := by
    apply List.eq_nil_iff_forall_not_mem.mpr
    intro i hi
    obtain ⟨hchosen, hanalyze⟩ := mem_decided_analyze_iff.mp hi
    rw [hreuses i hchosen] at hanalyze
    contradiction
  obtain ⟨_, w₂, hreuse, hw₂⟩ := succeeds_reusePhase hcalm found w₁ hw₁
  obtain ⟨hdisk₂, -, hcalls₂, hcache₂⟩ := reusePhase_eq_ok hreuse
  obtain ⟨results, w₃, hanalyze, hw₃⟩ := succeeds_analyzePhase hcalm found w₂ hw₂
  obtain ⟨rfl, hasks₃⟩ := analyzePhase_eq_ok hanalyze
  rw [hnone] at hasks₃
  rw [hnone, List.map_nil] at hanalyze
  have hdisk₃ : w₃.disk = w.disk := hasks₃.disk.trans (hdisk₂.trans hdisk₁)
  obtain ⟨w₄, hwrite, hw₄, hdisk₄, hcache₄, hcalls₄⟩ :=
    exists_writePhase_nil_eq_ok hcalm hw₃ (hdisk₃ ▸ hthere)
  have hcache₃ : w₄.cache.staged = [] := by
    rw [hcache₄, hasks₃.cache, hcache₂, hcache₁]
    exact hstaged
  obtain ⟨w₅, hflush, hw₅, hcalls₅, hdisk₅⟩ :=
    exists_flushCache_of_unstaged env w₄ {} hcache₃
  have hdisk : w₅.disk = w.disk := hdisk₅.trans (hdisk₄.trans hdisk₃)
  have hcalls : w₅.calls = w.calls ++ asked := by
    rw [hcalls₅, hcalls₄, hasks₃.calls_eq (by simp [AsksDefinition]), hcalls₂, hasked]
  have hprint := run_fingerprint (w := w₅) hcalm (hdisk ▸ hreadable)
  have hprepare : run (prepare env o) w = (.ok (found, []), w₃) := by
    rw [prepare, run_bind_of_eq_ok hselect, run_bind_of_eq_ok hreuse, run_bind_of_eq_ok hanalyze]
    rfl
  refine ⟨_, content, _, asked, run_complete hprepare hwrite hflush hprint, hselected,
    hnone, rfl, rfl, ?_, hcalls, hallowed, hdisk⟩
  dsimp only
  rw [hdisk]

/-- After a build whose cache is not lost, a build of the same catalog that uses the cache succeeds,
analyzes and writes nothing, and reports what the first one selected, whatever the project was like
before. -/
theorem rebuild_changes_nothing
    (hdated : env₁.catalog.IsDated) (hnow : env₁.now.IsInstant)
    (hfirst : run (complete env₁ o) w₁ = (.ok b, w₁')) (hflushed : b.flushed ≠ .failed)
    (hcatalog : env₂.catalog = env₁.catalog) (hcalm : env₂.Calm)
    (hdisk : w₂.disk = w₁'.disk) (hcancelled : w₂.cancelled = false) :
    ∃ b' w₂' asked, run (complete env₂ { o with noCache := false }) w₂ = (.ok b', w₂') ∧
      b'.report.analyzed = 0 ∧ b'.report.filesWritten = 0 ∧ b'.report.filesUnchanged = 0 ∧
      b'.report.selected = b.report.selected ∧ b'.report.skipped = b.report.skipped ∧
      b'.report.fingerprint = b.report.fingerprint ∧
      w₂'.calls = w₂.calls ++ asked ∧ (∀ call ∈ asked, call.readsContent = false) ∧
      w₂'.disk = w₁'.disk := by
  obtain ⟨content, hcompleted⟩ := complete_eq_ok hfirst hflushed
  have hupToDate : env₂.catalog.IsUpToDate { o with noCache := false } w₂.disk := by
    rw [hcatalog, hdisk]
    exact hcompleted.isUpToDate hdated hnow
  obtain ⟨b', content', w₂', asked, hrun, hselected, hnone, hwritten, -, hprint, hcalls, hallowed,
    hsame⟩ := exists_complete_of_isUpToDate hcalm hcancelled rfl hupToDate
      (hdisk ▸ hcompleted.directory) (hdisk ▸ hcompleted.readable)
  refine ⟨b', w₂', asked, hrun, ?_, ?_, ?_, ?_, ?_, ?_, hcalls, hallowed, hsame.trans hdisk⟩
  · simp [CompletedBuild.report, Collection.count, hnone]
  · simp [CompletedBuild.report, hwritten]
  · simp [CompletedBuild.report, hwritten]
  · have hnames : b'.found.selected = b.found.selected := by
      refine hselected.map_descriptor_chosen.trans ?_
      rw [hcatalog]
      exact hcompleted.selected.map_descriptor_chosen.symm
    simp [CompletedBuild.report, hnames]
  · have hskipped : b'.found.decided .skip = b.found.decided .skip := by
      rw [hselected.skipped, hcompleted.selected.skipped, hcatalog]
      rfl
    simp [CompletedBuild.report, Collection.count, hskipped]
  · simp only [CompletedBuild.report]
    rw [hprint, hcompleted.fingerprint, hdisk]
    rfl

theorem rebuild_changes_nothing_sample :
    ∃ b w b' w', run (complete (.calm .sample ⟨5000, 0⟩) .sample) .sample = (.ok b, w) ∧
      (∃ i ∈ b.found.chosen, i.decision = .analyze) ∧
      run (complete (.calm .sample ⟨6000, 0⟩) .sample) w = (.ok b', w') ∧
      b'.report.analyzed = 0 ∧ b'.report.selected = b.report.selected ∧ w'.disk = w.disk := by
  obtain ⟨b, w, hfirst, hflushed, hw, -⟩ :=
    exists_complete_sample rfl ⟨5000, 0⟩ rfl (w := .sample) rfl (.refl _)
  obtain ⟨content, hcompleted⟩ := complete_eq_ok hfirst hflushed
  have hrow : ⟨"audit", "Log", 3, ⟨3000, 0⟩⟩ ∈ Catalog.sample.rows := by decide +kernel
  obtain ⟨i, hi, -⟩ := hcompleted.selected.exists_item Catalog.hasDistinctProcedures_sample
    (Catalog.selects_sample rfl hrow)
  have hanalyze := hcompleted.selected.analyze_of_missing Disk.contentOf_cacheFile_sample hi
  have hcatalog : (Conditions.calm .sample ⟨6000, 0⟩).catalog =
      (Conditions.calm .sample ⟨5000, 0⟩).catalog := rfl
  obtain ⟨b', w', -, hrun, hanalyzed, -, -, hselected, -, -, -, -, hdisk⟩ :=
    rebuild_changes_nothing Catalog.isDated_sample (by decide +kernel) hfirst hflushed hcatalog
      (Conditions.calm_calm _ _) rfl hw
  exact ⟨b, w, b', w', hfirst, ⟨i, hi, hanalyze⟩, hrun, hanalyzed, hselected, hdisk⟩

end Build

end SqlSnapshot
