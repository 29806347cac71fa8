import SqlSnapshot.Proofs.Build.Complete

/-!
# When a build succeeds

In calm conditions every phase succeeds that does not write.  A phase that writes succeeds on a disk
that takes its files, and leaves room for those of the next one.
-/

namespace SqlSnapshot

/-- The second disk takes all files that the first one takes. -/
structure Disk.LeavesRoom (d d' : Disk) : Prop where
  there : ∀ path, d.HasDirectory path → d'.HasDirectory path
  takes : ∀ directory name, d.Takes directory name → d'.Takes directory name

namespace Disk.LeavesRoom

variable {d d' d'' : Disk}

theorem refl (d : Disk) : LeavesRoom d d :=
  ⟨fun _ h => h, fun _ _ h => h⟩

theorem trans
    (h₁ : LeavesRoom d d') (h₂ : LeavesRoom d' d'') :
    LeavesRoom d d'' :=
  ⟨fun path h => h₂.there path (h₁.there path h),
    fun directory name h => h₂.takes directory name (h₁.takes directory name h)⟩

theorem of_eq
    (h : d' = d) :
    LeavesRoom d d' :=
  h ▸ .refl d

theorem put
    {l : Location} (hl : l ≠ []) (hfree : d.isDirectory l = false) (content : ByteArray) :
    LeavesRoom d (d.put l (.file content)) :=
  ⟨fun _ h => h.of_grows (Disk.grows_put_file hl hfree content),
    fun _ _ h => h.put hl hfree content⟩

end Disk.LeavesRoom

/-- Up to the first write nothing fails and nobody cancels the build. -/
structure Conditions.Prepares (env : Conditions) : Prop where
  atCall : ∀ n call, (∀ schema table, call ≠ .tableColumns schema table) → env.atCall n call = none
  diskFails : ∀ n, env.diskFails n = false
  cancelsAfter : ∀ phase, phase ≠ .write → env.cancelsAfter phase = false

theorem Conditions.Calm.prepares
    {env : Conditions} (hcalm : env.Calm) :
    env.Prepares :=
  ⟨fun n call _ => hcalm.atCall n call, hcalm.diskFails, fun phase _ => hcalm.cancelsAfter phase⟩

namespace Build

variable {env : Conditions} {o : Options} {w : World}

/-! ## Phases that do not write -/

theorem succeeds_selectPhase
    (hcalm : env.Calm) (o : Options) :
    Succeeds (selectPhase env o) :=
  (isInterruptible_of_calm hcalm).selectPhase (fun _ _ => trivial)
    (succeeds_report (hcalm.cancelsAfter .collect)) o

theorem succeeds_reusePhase
    (hcalm : env.Calm) (found : Collection) :
    Succeeds (reusePhase env found) :=
  (isInterruptible_of_calm hcalm).reusePhase
    (succeeds_report (hcalm.cancelsAfter .recordReuse)) found

theorem succeeds_analyzePhase
    (hcalm : env.Calm) (found : Collection) :
    Succeeds (analyzePhase env found) :=
  (isInterruptible_of_calm hcalm).analyzePhase (fun _ => trivial) succeeds_analyzeAll
    (succeeds_report (hcalm.cancelsAfter .analyze)) found

theorem succeeds_enrichAll
    (hcalls : ∀ n call, env.atCall n call = none) (hdisk : ∀ n, env.diskFails n = false)
    (as : List Analysis) :
    Succeeds (enrichAll env as) := by
  have hreads := isInterruptible_succeeds (fun n call (_ : True) => hcalls n call) hdisk
  exact hreads.enrichAll (fun _ _ => trivial) as

theorem succeeds_prepare
    (henv : env.Prepares) (o : Options) :
    Succeeds (prepare env o) := by
  have hreads := isInterruptible_succeeds henv.atCall henv.diskFails
  have hreport : ∀ phase, phase ≠ .write → ∀ items notes, Succeeds (report env phase items notes) :=
    fun phase hphase => succeeds_report (henv.cancelsAfter phase hphase)
  refine succeeds_bind (hreads.selectPhase ?_ (hreport .collect (by decide)) o) ?_
  · rintro call hcall schema table rfl
    cases hcall
  · intro found
    refine succeeds_bind (hreads.reusePhase (hreport .recordReuse (by decide)) found) ?_
    intro _
    refine succeeds_bind (hreads.analyzePhase ?_ succeeds_analyzeAll
      (hreport .analyze (by decide)) found) fun _ => succeeds_pure _
    rintro d schema table h
    cases h

/-! ## Writing -/

theorem exists_replaceFile_eq_ok
    (hworks : env.diskFails w.accesses = false) {directory name : String}
    (htakes : w.disk.Takes directory name) (content : ByteArray) :
    ∃ w', run (replaceFile env directory name content) w = (.ok true, w') ∧
      w'.cancelled = w.cancelled ∧ w.disk.LeavesRoom w'.disk := by
  refine ⟨{ w with
    disk := w.disk.put (w.disk.place directory ++ [name]) (.file content)
    accesses := w.accesses + 1 }, ?_, rfl, .put (by simp) htakes.free content⟩
  refine (run_access hworks _ _).trans ?_
  rw [htakes.replaceFile_eq]
  rfl

theorem exists_writeEach_eq_ok
    (hdisk : ∀ n, env.diskFails n = false) (directory : String) (as : List Analysis)
    (htakes : ∀ a ∈ as, w.disk.Takes directory (Snapshot.fileName a.descriptor)) :
    ∃ written w', run (writeEach env directory as) w = (.ok written, w') ∧
      w'.cancelled = w.cancelled ∧ w.disk.LeavesRoom w'.disk := by
  induction as generalizing w with
  | nil => exact ⟨{}, w, rfl, rfl, .refl _⟩
  | cons a as ih =>
    have hcontent := run_access (hdisk w.accesses) none
      fun d => (d, (d.contentOf (Path.join directory (Snapshot.fileName a.descriptor))).toOption)
    rw [writeEach, contentOf, run_bind_of_eq_ok hcontent]
    split
    · obtain ⟨rest, w₂, hrest, hw₂, hroom⟩ := ih (w := { w with accesses := w.accesses + 1 })
        fun b hb => htakes b (List.mem_cons_of_mem a hb)
      rw [run_bind_of_eq_ok hrest]
      exact ⟨_, w₂, rfl, hw₂, hroom⟩
    · obtain ⟨w₂, hreplaced, hw₂, hroom⟩ := exists_replaceFile_eq_ok (hdisk _)
        (w := { w with accesses := w.accesses + 1 }) (htakes a List.mem_cons_self)
        (Snapshot.ofAnalysis a).canonicalBytes
      obtain ⟨rest, w₃, hrest, hw₃, hroom'⟩ := ih fun b hb =>
        hroom.takes _ _ (htakes b (List.mem_cons_of_mem a hb))
      rw [run_bind_of_eq_ok hreplaced, if_pos rfl, run_bind_of_eq_ok hrest]
      exact ⟨_, w₃, rfl, hw₃.trans hw₂, hroom.trans hroom'⟩

theorem run_makeDirectories
    (hdisk : ∀ n, env.diskFails n = false) {path : String} (hthere : w.disk.HasDirectory path) :
    run (makeDirectories env path) w = (.ok true, { w with accesses := w.accesses + 1 }) := by
  refine (run_access (hdisk _) _ _).trans ?_
  rw [hthere.makeDirectories_eq]
  rfl

theorem exists_writeSnapshots_eq_ok
    (hdisk : ∀ n, env.diskFails n = false) (hthere : w.disk.HasDirectory o.schemaDirectory)
    {as : List Analysis}
    (htakes : ∀ a ∈ as, w.disk.Takes o.schemaDirectory (Snapshot.fileName a.descriptor)) :
    ∃ written w', run (writeSnapshots env o as) w = (.ok written, w') ∧
      w'.cancelled = w.cancelled ∧ w.disk.LeavesRoom w'.disk := by
  obtain ⟨written, w', hwritten, hw', hroom⟩ := exists_writeEach_eq_ok hdisk
    (w := { w with accesses := w.accesses + 1 }) o.schemaDirectory as htakes
  rw [writeSnapshots, run_bind_of_eq_ok (run_makeDirectories hdisk hthere)]
  exact ⟨written, w', hwritten, hw', hroom⟩

theorem exists_writePhase_eq_ok
    (hcalm : env.Calm) (hw : w.cancelled = false) (hthere : w.disk.HasDirectory o.schemaDirectory)
    {results : List Analysis} (htables : TablesAgree env.catalog w.tables)
    (htakes : ∀ a ∈ results, w.disk.Takes o.schemaDirectory (Snapshot.fileName a.descriptor)) :
    ∃ written issues w', run (writePhase env o results) w = (.ok (written, issues), w') ∧
      w'.cancelled = false ∧ w.disk.LeavesRoom w'.disk := by
  obtain ⟨⟨enriched, issues⟩, w₁, henrich, hw₁⟩ :=
    succeeds_enrichAll hcalm.atCall hcalm.diskFails results w hw
  obtain ⟨rfl, hdisk₁, -⟩ := enrichAll_eq_ok htables henrich
  have htakes₁ : ∀ b ∈ results.map (·.enriched env.catalog.columns?),
      w₁.disk.Takes o.schemaDirectory (Snapshot.fileName b.descriptor) := by
    intro b hb
    obtain ⟨a, ha, rfl⟩ := List.mem_map.mp hb
    rw [Analysis.descriptor_enriched, hdisk₁]
    exact htakes a ha
  obtain ⟨written, w₂, hwrite, hw₂, hroom⟩ :=
    exists_writeSnapshots_eq_ok hcalm.diskFails (hdisk₁ ▸ hthere) htakes₁
  obtain ⟨_, w₃, hreport, hw₃⟩ := succeeds_report (hcalm.cancelsAfter .write)
    (results.map (·.enriched env.catalog.columns?)).length
    (some s!"{written.filesWritten} written, {written.filesUnchanged} unchanged") w₂
    (hw₂.trans hw₁)
  obtain ⟨_, w₄, hcheck, hw₄⟩ := succeeds_checkCancelled .write w₃ hw₃
  refine ⟨written, issues, w₄, ?_, hw₄, ?_⟩
  · rw [writePhase, run_bind_of_eq_ok henrich]
    dsimp only
    rw [run_bind_of_eq_ok hwrite, run_bind_of_eq_ok hreport, run_bind_of_eq_ok hcheck]
    rfl
  · have hasks : World.Asks (fun _ => True) w₂ w₃ := report_eq_ok hreport
    rw [checkCancelled_eq_ok hcheck, hasks.disk]
    exact (Disk.LeavesRoom.of_eq hdisk₁).trans hroom

/-! ## The end of a build -/

theorem exists_flushCache_of_unstaged
    (env : Conditions) (w : World) (written : WrittenSnapshots)
    (hstaged : (((written.updated ++ written.unchanged).filterMap
      (Cache.analysisRecord? env.now)).foldl Cache.stage w.cache).staged = []) :
    ∃ w', run (flushCache env written) w = (.ok .unchanged, w') ∧
      w'.cancelled = w.cancelled ∧ w'.calls = w.calls ∧ w'.disk = w.disk := by
  unfold flushCache
  rw [run_bind_of_eq_ok (run_get w), Cache.foldl_recordAnalysis]
  dsimp only
  generalize ((written.updated ++ written.unchanged).filterMap
    (Cache.analysisRecord? env.now)).foldl Cache.stage w.cache = recorded at hstaged ⊢
  have hflush : recorded.flush (replaceFile env) = pure (.unchanged, recorded) := by
    unfold Cache.flush
    split
    · rfl
    · rw [if_pos (List.isEmpty_iff.mpr hstaged)]
  rw [hflush, run_bind_of_eq_ok (run_pure _ w)]
  exact ⟨_, rfl, rfl, rfl, rfl⟩

theorem exists_flushCache_eq_ok
    (hcalm : env.Calm) (hdirectory : w.cache.directory = some o.cacheDirectory)
    (htakes : w.disk.Takes o.cacheDirectory Options.cacheName) (written : WrittenSnapshots) :
    ∃ outcome w', run (flushCache env written) w = (.ok outcome, w') ∧ outcome ≠ .failed ∧
      w'.cancelled = w.cancelled ∧ w.disk.LeavesRoom w'.disk := by
  by_cases hstaged : (((written.updated ++ written.unchanged).filterMap
      (Cache.analysisRecord? env.now)).foldl Cache.stage w.cache).staged = []
  · obtain ⟨w', hrun, hcancelled, -, hdisk⟩ := exists_flushCache_of_unstaged env w written hstaged
    exact ⟨_, w', hrun, by simp, hcancelled, .of_eq hdisk⟩
  · unfold flushCache
    rw [run_bind_of_eq_ok (run_get w), Cache.foldl_recordAnalysis]
    dsimp only
    generalize hrecorded : ((written.updated ++ written.unchanged).filterMap
      (Cache.analysisRecord? env.now)).foldl Cache.stage w.cache = recorded at hstaged ⊢
    have hsame : recorded.directory = some o.cacheDirectory := by
      rw [← hrecorded, Cache.directory_foldl_stage, hdirectory]
    obtain ⟨w₁, hreplaced, hw₁, hroom⟩ :=
      exists_replaceFile_eq_ok (hcalm.diskFails _) htakes recorded.merged.fileText.toUTF8
    have hflush : run (recorded.flush (replaceFile env)) w =
        (.ok (.persisted, { recorded with loaded := recorded.merged, staged := [] }), w₁) := by
      unfold Cache.flush
      rw [hsame]
      dsimp only
      rw [if_neg (by simpa using hstaged), run_bind_of_eq_ok hreplaced, if_pos rfl]
      rfl
    rw [run_bind_of_eq_ok hflush]
    exact ⟨_, _, rfl, by simp, hw₁, hroom⟩

theorem run_fingerprint
    (hcalm : env.Calm) {path : String} (hreadable : w.disk.documents path ≠ .error .refused) :
    run (Build.fingerprint env path Snapshot.fingerprint) w =
      (.ok (w.disk.fingerprint path), { w with accesses := w.accesses + 1 }) := by
  rw [Build.fingerprint, run_bind_of_eq_ok (run_access (hcalm.diskFails _) _ _), Disk.fingerprint]
  dsimp only
  cases hdocuments : w.disk.documents path with
  | ok files => rfl
  | error e =>
    cases e with
    | missing => rfl
    | refused => exact absurd hdocuments hreadable

theorem run_complete
    {w₁ w₂ w₃ w₄ : World} {found : Collection} {results : List Analysis}
    {written : WrittenSnapshots} {issues : List Issue} {flushed : FlushOutcome}
    {fingerprint : Option String}
    (hprepare : run (prepare env o) w = (.ok (found, results), w₁))
    (hwrite : run (writePhase env o results) w₁ = (.ok (written, issues), w₂))
    (hflush : run (flushCache env written) w₂ = (.ok flushed, w₃))
    (hprint : run (Build.fingerprint env o.schemaDirectory Snapshot.fingerprint) w₃ =
      (.ok fingerprint, w₄)) :
    run (complete env o) w =
      (.ok ⟨found, results, written, issues, flushed, fingerprint⟩, w₄) := by
  have huntil : run (untilFlushed env o) w =
      (.ok ⟨found, results, written, issues, flushed, none⟩, w₃) := by
    rw [untilFlushed, run_bind_of_eq_ok hprepare]
    dsimp only
    rw [run_bind_of_eq_ok hwrite]
    dsimp only
    rw [run_bind_of_eq_ok hflush]
    rfl
  rw [complete_eq, run_bind_of_eq_ok huntil, run_bind_of_eq_ok hprint]
  rfl

theorem Prepared.takes
    {content : Option ByteArray} {found : Collection} {results : List Analysis} {w' : World}
    (h : Prepared env o w content found results w')
    (hsnapshots : ∀ p ∈ env.catalog.rows,
      w.disk.Takes o.schemaDirectory (Snapshot.fileName p.descriptor)) :
    ∀ a ∈ results, w'.disk.Takes o.schemaDirectory (Snapshot.fileName a.descriptor) := by
  intro a ha
  obtain ⟨i, hi, hname⟩ := h.exists_item ha
  rw [Collection.decided_eq_filter_chosen _ (by simp)] at hi
  obtain ⟨p, hp, hdescribes⟩ :=
    exists_left_of_forall₂ h.selected.described (List.mem_filter.mp hi).1
  rw [← hname, hdescribes.descriptor, h.disk]
  exact hsnapshots p (Catalog.mem_rows_of_mem_selectedRows hp)

/-- In calm conditions a build succeeds on a disk that takes the cache file and the snapshots of all
procedures of the catalog, and the disk takes them still. -/
theorem exists_complete_eq_ok
    (hcalm : env.Calm) (hw : w.cancelled = false) (hthere : w.disk.HasDirectory o.schemaDirectory)
    (hcache : w.disk.Takes o.cacheDirectory Options.cacheName)
    (hsnapshots : ∀ p ∈ env.catalog.rows,
      w.disk.Takes o.schemaDirectory (Snapshot.fileName p.descriptor)) :
    ∃ b w', run (complete env o) w = (.ok b, w') ∧ b.flushed ≠ .failed ∧ w'.cancelled = false ∧
      w.disk.LeavesRoom w'.disk := by
  obtain ⟨⟨found, results⟩, w₁, hprepare, hw₁⟩ := succeeds_prepare hcalm.prepares o w hw
  obtain ⟨content, hprepared⟩ := prepare_eq_ok hprepare
  obtain ⟨written, issues, w₂, hwrite, hw₂, hroom₂⟩ := exists_writePhase_eq_ok hcalm hw₁
    (hprepared.disk ▸ hthere) hprepared.tablesAgree (hprepared.takes hsnapshots)
  obtain ⟨-, -, -, -, hcache₂, -⟩ := writePhase_eq_ok hprepared.tablesAgree hwrite
  have hroom := (Disk.LeavesRoom.of_eq hprepared.disk).trans hroom₂
  obtain ⟨flushed, w₃, hflush, hflushed, hw₃, hroom₃⟩ := exists_flushCache_eq_ok hcalm
    (hcache₂ ▸ hprepared.cacheDirectory) (hroom.takes _ _ hcache) written
  have hreadable : w₃.disk.documents o.schemaDirectory ≠ .error .refused :=
    ((hroom.trans hroom₃).there _ hthere).documents_ne_refused o.isPlain_schemaDirectory.isEmpty_eq
  exact ⟨_, _, run_complete hprepare hwrite hflush (run_fingerprint hcalm hreadable),
    hflushed, hw₃.trans hw₂, hroom.trans hroom₃⟩

end Build

/-! ## A sample project -/

/-- A project with its directories and no file. -/
def Disk.sample : Disk where
  nodes := [(["p"], .directory), (["p", ".spocr"], .directory),
    (["p", ".spocr", "schema"], .directory), (["p", ".spocr", "cache"], .directory)]

def Options.sample : Options where
  projectRoot := "/p"

def World.sample : World where
  disk := .sample
  cache := {}

theorem Disk.hasDirectory_sample : Disk.sample.HasDirectory Options.sample.schemaDirectory :=
  ⟨by decide +kernel, ["p", ".spocr", "schema"], rfl, isDirectory_iff.mp (by decide +kernel)⟩

theorem Disk.takes_cache_sample :
    Disk.sample.Takes Options.sample.cacheDirectory Options.cacheName where
  there :=
    ⟨by decide +kernel, ["p", ".spocr", "cache"], rfl, isDirectory_iff.mp (by decide +kernel)⟩
  draft := by decide +kernel
  usable := by decide +kernel
  limit := by decide +kernel
  free := by decide +kernel

theorem Disk.takes_snapshot_sample
    (p : ProcedureRow) (hp : p ∈ Catalog.sample.rows) :
    Disk.sample.Takes Options.sample.schemaDirectory (Snapshot.fileName p.descriptor) where
  there := hasDirectory_sample
  draft := by decide +kernel
  usable := by
    revert p
    decide +kernel
  limit := by
    revert p
    decide +kernel
  free := by
    revert p
    decide +kernel

theorem Disk.contentOf_cacheFile_sample
    (bytes : ByteArray) :
    Disk.sample.contentOf Options.sample.cacheFile ≠ .ok bytes := by
  intro h
  have hfile : Disk.sample.isFile Options.sample.cacheFile = true := isFile_iff.mpr ⟨bytes, h⟩
  have hmissing : Disk.sample.isFile Options.sample.cacheFile = false := by decide +kernel
  rw [hmissing] at hfile
  contradiction

theorem Catalog.selects_sample
    {c : Catalog} (hnames : c.rows.map (·.descriptor) = Catalog.sample.rows.map (·.descriptor))
    {p : ProcedureRow} (hp : p ∈ c.rows) :
    c.Selects .sample p := by
  have hname : p.descriptor ∈ Catalog.sample.rows.map (·.descriptor) := by
    rw [← hnames]
    exact List.mem_map_of_mem hp
  have haccepts : ∀ d ∈ Catalog.sample.rows.map (·.descriptor),
      (NameFilter.ofOptions .sample).accepts d = true := by decide +kernel
  exact ⟨p, hp, haccepts _ hname, .refl⟩

/-- Where the sample project was built, a catalog of the sample's names can be built. -/
theorem Build.exists_complete_sample
    {c : Catalog} (hnames : c.rows.map (·.descriptor) = Catalog.sample.rows.map (·.descriptor))
    (now : Timestamp) {o : Options} (hroot : o.projectRoot = Options.sample.projectRoot) {w : World}
    (hw : w.cancelled = false) (hroom : Disk.sample.LeavesRoom w.disk) :
    ∃ b w', run (complete (.calm c now) o) w = (.ok b, w') ∧ b.flushed ≠ .failed ∧
      w'.cancelled = false ∧ Disk.sample.LeavesRoom w'.disk := by
  have hschema : o.schemaDirectory = Options.sample.schemaDirectory := by
    simp only [Options.schemaDirectory, Options.stateDirectory, hroot]
  have hcache : o.cacheDirectory = Options.sample.cacheDirectory := by
    simp only [Options.cacheDirectory, Options.stateDirectory, hroot]
  obtain ⟨b, w', hrun, hflushed, hw', hroom'⟩ := exists_complete_eq_ok
    (Conditions.calm_calm c now) hw (hschema ▸ hroom.there _ Disk.hasDirectory_sample)
    (hcache ▸ hroom.takes _ _ Disk.takes_cache_sample) fun p hp => by
      have hname : p.descriptor ∈ Catalog.sample.rows.map (·.descriptor) := by
        rw [← hnames]
        exact List.mem_map_of_mem hp
      obtain ⟨q, hq, hsame⟩ := List.mem_map.mp hname
      rw [hschema, ← hsame]
      exact hroom.takes _ _ (Disk.takes_snapshot_sample q hq)
  exact ⟨b, w', hrun, hflushed, hw', hroom.trans hroom'⟩

end SqlSnapshot
