import SqlSnapshot.Proofs.Build.Phases
import SqlSnapshot.Proofs.Build.Selection

/-!
# What a build leaves

A build that succeeds loads the cache file, collects, and leaves the snapshots of all procedures
that it analyzed.  Unless writing the cache fails, the cache file then holds the loaded entries with
everything that the build recorded.
-/

namespace SqlSnapshot

/-- The fingerprint of the documents in a directory. -/
def Disk.fingerprint (d : Disk) (path : String) : Option String :=
  ((d.documents path).toOption).map Snapshot.fingerprint

namespace Build

variable {env : Conditions} {o : Options} {w w' : World}

/-! ## Selecting -/

/-- What selecting gives, where the cache file was read with the given content. -/
structure Selected (env : Conditions) (o : Options) (w : World) (content : Option ByteArray)
    (found : Collection) : Prop where
  loaded : ∀ bytes, content = some bytes → w.disk.contentOf o.cacheFile = .ok bytes
  /-- Only a failing disk hides a cache file that is there. -/
  unread : (∀ n, env.diskFails n = false) → content = (w.disk.contentOf o.cacheFile).toOption
  described : List.Forall₂
    (fun p i => i.Describes env o ((Cache.load o content).lookup? o p.descriptor) w.disk p)
    (env.catalog.selectedRows o) found.chosen
  skipped : found.decided .skip = (env.catalog.missingNames o).map .skipped

theorem start_eq_ok
    {u : Unit} (h : run (start env o) w = (.ok u, w')) :
    ∃ content, (∀ bytes, content = some bytes → w.disk.contentOf o.cacheFile = .ok bytes) ∧
      ((∀ n, env.diskFails n = false) → content = (w.disk.contentOf o.cacheFile).toOption) ∧
      w'.disk = w.disk ∧ w'.cache = Cache.load o content ∧ w'.tables = [] ∧ w'.calls = w.calls := by
  obtain ⟨content, w₁, hcontent, hrest⟩ := run_bind_eq_ok.mp h
  obtain ⟨houtcome, hasks⟩ := contentOf_eq_ok (fun _ => False) hcontent
  cases hrest
  refine ⟨content, ?_, ?_, hasks.disk, rfl, rfl, ?_⟩
  · rintro bytes rfl
    rcases houtcome with ⟨hnone, -⟩ | hread
    · contradiction
    · exact eq_ok_of_toOption hread.symm
  · intro hcalm
    rcases houtcome with ⟨-, n, hfails⟩ | hread
    · rw [hcalm n] at hfails
      contradiction
    · exact hread
  · exact hasks.calls_eq fun _ => not_false

theorem selectPhase_eq_ok
    {found : Collection} (h : run (selectPhase env o) w = (.ok found, w')) :
    ∃ content, Selected env o w content found ∧ w'.disk = w.disk ∧
      w'.cache = Cache.load o content ∧ w'.tables = [] ∧
      ∃ asked, w'.calls = w.calls ++ asked ∧ ∀ call ∈ asked, call.readsContent = false := by
  obtain ⟨_, w₁, hstart, hrest⟩ := run_bind_eq_ok.mp h
  obtain ⟨content, hloaded, hunread, hdisk, hcache, htables, hcalls⟩ := start_eq_ok hstart
  obtain ⟨found', w₂, hcollect, hrest⟩ := run_bind_eq_ok.mp hrest
  obtain ⟨hdescribed, hskipped, hasks⟩ := describes_of_collect hcollect
  obtain ⟨_, w₃, hreport, hrest⟩ := run_bind_eq_ok.mp hrest
  have hasks' : Collects w₂ w₃ := report_eq_ok hreport
  have hcheck := eq_ok_of_checkCancelled hrest
  cases hcheck
  have hboth := hasks.trans hasks'
  rw [hcache, hdisk] at hdescribed
  refine ⟨content, ⟨hloaded, hunread, hdescribed, hskipped⟩, hboth.disk.trans hdisk,
    hboth.cache.trans hcache, hboth.tables.trans htables, ?_⟩
  obtain ⟨asked, hasked, hallowed⟩ := hboth.calls
  exact ⟨asked, by rw [hasked, hcalls], hallowed⟩

/-! ## Preparing -/

theorem cancelled_of_analyzePhase
    {results : List Analysis} {found : Collection}
    (h : run (analyzePhase env found) w = (.ok results, w')) :
    w'.cancelled = false := by
  obtain ⟨inputs, w₁, -, h⟩ := run_bind_eq_ok.mp h
  rw [run_bind_of_eq_ok (run_get w₁)] at h
  obtain ⟨as, w₂, -, h⟩ := run_bind_eq_ok.mp h
  obtain ⟨_, w₃, -, h⟩ := run_bind_eq_ok.mp h
  obtain ⟨_, w₄, hcheck, h⟩ := run_bind_eq_ok.mp h
  have hcancelled := cancelled_of_checkCancelled hcheck
  rw [← checkCancelled_eq_ok hcheck] at hcancelled
  cases h
  exact hcancelled

/-- A build up to its first write. -/
def prepare (env : Conditions) (o : Options) : Build (Collection × List Analysis) := do
  let found ← selectPhase env o
  reusePhase env found
  let results ← analyzePhase env found
  return (found, results)

/-- What a build has before its first write, where the cache file was read with the content. -/
structure Prepared (env : Conditions) (o : Options) (w : World) (content : Option ByteArray)
    (found : Collection) (results : List Analysis) (w' : World) : Prop where
  selected : Selected env o w content found
  results : results = (found.decided .analyze).map fun i =>
    (AnalysisInput.mk i (env.catalog.definition? i.descriptor)).analyze
  disk : w'.disk = w.disk
  tables : w'.tables = []
  cache : w'.cache = ((found.decided .reuse).filterMap
    (Cache.reuseRecord? (Cache.load o content).loaded env.now)).foldl Cache.stage
      (Cache.load o content)
  calls : w.calls <+: w'.calls
  cancelled : w'.cancelled = false

theorem prepare_eq_ok
    {found : Collection} {results : List Analysis}
    (h : run (prepare env o) w = (.ok (found, results), w')) :
    ∃ content, Prepared env o w content found results w' := by
  obtain ⟨found', w₁, hselect, hrest⟩ := run_bind_eq_ok.mp h
  obtain ⟨content, hselected, hdisk₁, hcache₁, htables₁, asked, hcalls₁, -⟩ :=
    selectPhase_eq_ok hselect
  obtain ⟨_, w₂, hreuse, hrest⟩ := run_bind_eq_ok.mp hrest
  obtain ⟨hdisk₂, htables₂, hcalls₂, hcache₂⟩ := reusePhase_eq_ok hreuse
  obtain ⟨results', w₃, hanalyze, hrest⟩ := run_bind_eq_ok.mp hrest
  cases hrest
  obtain ⟨hresults, hasks⟩ := analyzePhase_eq_ok hanalyze
  obtain ⟨asked', hcalls₃, -⟩ := hasks.calls
  refine ⟨content, hselected, hresults, hasks.disk.trans (hdisk₂.trans hdisk₁),
    hasks.tables.trans (htables₂.trans htables₁), ?_, ?_, cancelled_of_analyzePhase hanalyze⟩
  · rw [hasks.cache, hcache₂, hcache₁]
  · rw [hcalls₃, hcalls₂, hcalls₁, List.append_assoc]
    exact List.prefix_append _ _

section Prepared

variable {content : Option ByteArray} {found : Collection} {results : List Analysis}

theorem Prepared.tablesAgree
    (h : Prepared env o w content found results w') :
    TablesAgree env.catalog w'.tables := by
  rw [h.tables]
  exact tablesAgree_nil _

theorem Prepared.cacheDirectory
    (h : Prepared env o w content found results w') :
    w'.cache.directory = some o.cacheDirectory := by
  rw [h.cache, Cache.directory_foldl_stage]
  rfl

theorem Prepared.exists_item
    (h : Prepared env o w content found results w') {a : Analysis} (ha : a ∈ results) :
    ∃ i ∈ found.decided .analyze, i.descriptor = a.descriptor := by
  rw [h.results] at ha
  obtain ⟨i, hi, rfl⟩ := List.mem_map.mp ha
  exact ⟨i, hi, by rw [AnalysisInput.descriptor_analyze]⟩

theorem Prepared.exists_result
    (h : Prepared env o w content found results w') {i : CollectionItem}
    (hi : i ∈ found.decided .analyze) :
    ∃ a ∈ results, a.descriptor = i.descriptor ∧
      a.enriched env.catalog.columns? = i.analysis env.catalog := by
  refine ⟨_, ?_, AnalysisInput.descriptor_analyze _, rfl⟩
  rw [h.results]
  exact List.mem_map_of_mem hi

theorem Prepared.pairwise_results
    (h : Prepared env o w content found results w')
    (hnames : (found.decided .analyze).Pairwise fun i j =>
      Snapshot.fileName i.descriptor ≠ Snapshot.fileName j.descriptor) :
    results.Pairwise fun a b =>
      Snapshot.fileName a.descriptor ≠ Snapshot.fileName b.descriptor := by
  rw [h.results, List.pairwise_map]
  simpa only [AnalysisInput.descriptor_analyze] using hnames

end Prepared

/-! ## The end of a build -/

/-- The entries that a build stages for what it reused and then for what it analyzed. -/
def recordedEntries (env : Conditions) (loaded : CacheEntries) (found : Collection)
    (written : WrittenSnapshots) : List CacheEntry :=
  (found.decided .reuse).filterMap (Cache.reuseRecord? loaded env.now) ++
    (written.updated ++ written.unchanged).filterMap (Cache.analysisRecord? env.now)

/-- A cache is written only if something is staged, and then as a whole. -/
theorem flush_cases
    {c : Cache} {directory : String} {outcome : FlushOutcome × Cache}
    (hdirectory : c.directory = some directory)
    (h : run (c.flush (replaceFile env)) w = (.ok outcome, w')) :
    c.staged = [] ∧ outcome = (.unchanged, c) ∧ w' = w ∨
    c.staged ≠ [] ∧ ∃ stored,
      run (replaceFile env directory Options.cacheName c.merged.fileText.toUTF8) w =
        (.ok stored, w') ∧
      outcome = if stored then (.persisted, { c with loaded := c.merged, staged := [] })
        else (.failed, { c with staged := [] }) := by
  unfold Cache.flush at h
  simp only [hdirectory] at h
  split at h
  · rename_i hempty
    cases h
    exact Or.inl ⟨List.isEmpty_iff.mp hempty, rfl, rfl⟩
  · rename_i hstaged
    obtain ⟨stored, w₁, hstore, hrest⟩ := run_bind_eq_ok.mp h
    refine Or.inr ⟨fun hempty => hstaged (List.isEmpty_iff.mpr hempty), stored, ?_⟩
    cases stored <;> cases hrest <;> exact ⟨hstore, by simp [hdirectory]⟩

/-- The cache file is left alone if nothing is staged, and replaced as a whole otherwise. -/
theorem flushCache_cases
    {written : WrittenSnapshots} {outcome : FlushOutcome}
    (hdirectory : w.cache.directory = some o.cacheDirectory)
    (h : run (flushCache env written) w = (.ok outcome, w')) :
    (((written.updated ++ written.unchanged).filterMap
        (Cache.analysisRecord? env.now)).foldl Cache.stage w.cache).staged = [] ∧
      outcome = .unchanged ∧ w'.disk = w.disk ∨
    ∃ stored w₁, run (replaceFile env o.cacheDirectory Options.cacheName
        (((written.updated ++ written.unchanged).filterMap
          (Cache.analysisRecord? env.now)).foldl Cache.stage w.cache).merged.fileText.toUTF8) w =
            (.ok stored, w₁) ∧
      outcome = (if stored then .persisted else .failed) ∧ w'.disk = w₁.disk := by
  unfold flushCache at h
  rw [run_bind_of_eq_ok (run_get w)] at h
  dsimp only at h
  rw [Cache.foldl_recordAnalysis] at h
  generalize hrecorded : ((written.updated ++ written.unchanged).filterMap
    (Cache.analysisRecord? env.now)).foldl Cache.stage w.cache = recorded at h ⊢
  have hdirectory' : recorded.directory = some o.cacheDirectory := by
    rw [← hrecorded, Cache.directory_foldl_stage, hdirectory]
  obtain ⟨⟨result, cache⟩, w₁, hflush, hrest⟩ := run_bind_eq_ok.mp h
  rw [run_bind_of_eq_ok (run_modify _ w₁)] at hrest
  cases hrest
  rcases flush_cases hdirectory' hflush with ⟨hstaged, houtcome, rfl⟩ |
    ⟨-, stored, hstore, houtcome⟩
  · cases houtcome
    exact Or.inl ⟨hstaged, rfl, rfl⟩
  · refine Or.inr ⟨stored, w₁, hstore, ?_⟩
    cases stored <;> cases houtcome <;> exact ⟨rfl, rfl⟩

theorem flushCache_eq_ok
    {written : WrittenSnapshots} {outcome : FlushOutcome}
    (hdirectory : w.cache.directory = some o.cacheDirectory)
    (h : run (flushCache env written) w = (.ok outcome, w')) (hflushed : outcome ≠ .failed) :
    Disk.Grows (· = w.disk.place o.cacheFile) w.disk w'.disk ∧
      (w'.disk.contentOf o.cacheFile =
          .ok (((written.updated ++ written.unchanged).filterMap
            (Cache.analysisRecord? env.now)).foldl Cache.stage w.cache).merged.fileText.toUTF8 ∨
        (((written.updated ++ written.unchanged).filterMap
          (Cache.analysisRecord? env.now)).foldl Cache.stage w.cache).staged = [] ∧
        w'.disk = w.disk) := by
  rcases flushCache_cases hdirectory h with ⟨hstaged, -, hdisk⟩ | ⟨stored, w₁, hstore, rfl, hdisk⟩
  · exact ⟨hdisk ▸ .refl _ _, Or.inr ⟨hstaged, hdisk⟩⟩
  · cases stored with
    | false => contradiction
    | true =>
      obtain ⟨hreplaced, -⟩ := replaceFile_eq_ok hstore
      obtain ⟨hgrows, hcontent⟩ := Disk.replaceFile_eq_ok o.isPlain_stateDirectory
        Options.isName_cache Options.isName_cacheName hreplaced
      rw [hdisk]
      exact ⟨hgrows, Or.inl hcontent⟩

/-- A cache that could not be written leaves all files as they were. -/
theorem flushCache_eq_failed
    {written : WrittenSnapshots} (hdirectory : w.cache.directory = some o.cacheDirectory)
    (h : run (flushCache env written) w = (.ok .failed, w')) (changed : Location → Prop) :
    Disk.Grows changed w.disk w'.disk := by
  rcases flushCache_cases hdirectory h with ⟨-, hunchanged, -⟩ |
    ⟨stored, w₁, hstore, houtcome, hdisk⟩
  · cases hunchanged
  · cases stored with
    | true => cases houtcome
    | false =>
      rw [hdisk]
      exact replaceFile_eq_false hstore changed

theorem fingerprint_eq_ok
    {path : String} {fingerprint : Option String}
    (h : run (Build.fingerprint env path Snapshot.fingerprint) w = (.ok fingerprint, w')) :
    fingerprint = w.disk.fingerprint path ∧ w.disk.documents path ≠ .error .refused ∧
      w'.disk = w.disk := by
  obtain ⟨outcome, w₁, haccess, hrest⟩ := run_bind_eq_ok.mp h
  have hasks : World.Asks (fun _ => True) w w₁ := asks_of_access (fun _ => rfl) haccess
  rcases (access_eq_ok haccess).1 with ⟨-, rfl, -⟩ | ⟨-, rfl, -⟩
  · cases hrest
  · unfold Disk.fingerprint
    cases hdocuments : w.disk.documents path with
    | ok files =>
      simp only [hdocuments] at hrest
      cases hrest
      exact ⟨rfl, by simp, hasks.disk⟩
    | error e =>
      cases e with
      | missing =>
        simp only [hdocuments] at hrest
        cases hrest
        exact ⟨rfl, by simp, hasks.disk⟩
      | refused =>
        simp only [hdocuments] at hrest
        cases hrest

/-- What a build leaves that succeeds and whose cache is not lost. -/
structure Completed (env : Conditions) (o : Options) (w : World) (content : Option ByteArray)
    (b : CompletedBuild) (d : Disk) : Prop where
  selected : Selected env o w content b.found
  written : (b.written.updated ++ b.written.unchanged).Perm
    ((b.found.decided .analyze).map fun i => withSnapshot (i.analysis env.catalog))
  grows : Disk.Grows (fun l => l = w.disk.place o.cacheFile ∨
    ∃ i ∈ b.found.decided .analyze, l = w.disk.place (o.snapshotPath i.descriptor)) w.disk d
  directory : d.HasDirectory o.schemaDirectory
  files : ∀ i ∈ b.found.decided .analyze, d.isFile (o.snapshotPath i.descriptor) = true
  contents : ((b.found.decided .analyze).Pairwise fun i j =>
      Snapshot.fileName i.descriptor ≠ Snapshot.fileName j.descriptor) →
    ∀ i ∈ b.found.decided .analyze, d.contentOf (o.snapshotPath i.descriptor) =
      .ok (Snapshot.ofAnalysis (i.analysis env.catalog)).canonicalBytes
  cached : d.contentOf o.cacheFile = .ok ((recordedEntries env (Cache.load o content).loaded b.found
        b.written).foldl Cache.stage (Cache.load o content)).merged.fileText.toUTF8 ∨
    ((recordedEntries env (Cache.load o content).loaded b.found
      b.written).foldl Cache.stage (Cache.load o content)).staged = [] ∧
    (∀ bytes, w.disk.contentOf o.cacheFile = .ok bytes → d.contentOf o.cacheFile = .ok bytes) ∧
    ∀ bytes, d.node? (w.disk.place o.cacheFile) = some (.file bytes) →
      w.disk.node? (w.disk.place o.cacheFile) = some (.file bytes)
  fingerprint : b.fingerprint = d.fingerprint o.schemaDirectory
  readable : d.documents o.schemaDirectory ≠ .error .refused

/-- A build up to the writing of its cache; the fingerprint is left open. -/
def untilFlushed (env : Conditions) (o : Options) : Build CompletedBuild := do
  let (found, results) ← prepare env o
  let (written, resultIssues) ← writePhase env o results
  let flushed ← flushCache env written
  return { found, results, written, resultIssues, flushed, fingerprint := none }

theorem complete_eq
    (env : Conditions) (o : Options) :
    complete env o = do
      let b ← untilFlushed env o
      let fingerprint ← fingerprint env o.schemaDirectory Snapshot.fingerprint
      return { b with fingerprint } := by
  simp only [complete, untilFlushed, prepare, bind_assoc, pure_bind]

theorem untilFlushed_eq_ok
    {b : CompletedBuild} (h : run (untilFlushed env o) w = (.ok b, w'))
    (hflushed : b.flushed ≠ .failed) :
    ∃ content, Completed env o w content
      { b with fingerprint := w'.disk.fingerprint o.schemaDirectory } w'.disk := by
  obtain ⟨⟨found, results⟩, w₁, hprepare, hrest⟩ := run_bind_eq_ok.mp h
  obtain ⟨content, hprepared⟩ := prepare_eq_ok hprepare
  obtain ⟨⟨written, issues⟩, w₂, hwrite, hrest⟩ := run_bind_eq_ok.mp hrest
  obtain ⟨hgrows₂, hdirectory₂, hperm, hfiles, hcache₂, hcontents⟩ :=
    writePhase_eq_ok hprepared.tablesAgree hwrite
  obtain ⟨flushed, w₃, hflush, hrest⟩ := run_bind_eq_ok.mp hrest
  cases hrest
  obtain ⟨hgrows₃, hcached⟩ :=
    flushCache_eq_ok (hcache₂ ▸ hprepared.cacheDirectory) hflush hflushed
  rw [hprepared.disk] at hgrows₂
  rw [Disk.place_congr hgrows₂.here] at hgrows₃
  rw [hcache₂, hprepared.cache, ← List.foldl_append] at hcached
  have hdirectory := hdirectory₂.of_grows hgrows₃
  refine ⟨content, hprepared.selected, ?_, ?_, hdirectory, ?_, ?_, ?_, rfl,
    hdirectory.documents_ne_refused o.isPlain_schemaDirectory.isEmpty_eq⟩
  · rw [hprepared.results, List.map_map] at hperm
    exact hperm
  · refine (hgrows₂.mono ?_).trans (hgrows₃.mono fun l hl => Or.inl hl)
    rintro l ⟨a, ha, hplace⟩
    obtain ⟨i, hi, hname⟩ := hprepared.exists_item ha
    exact Or.inr ⟨i, hi, hname ▸ hplace⟩
  · intro i hi
    obtain ⟨a, ha, hname, -⟩ := hprepared.exists_result hi
    exact Disk.isFile_of_grows hgrows₃ (hname ▸ hfiles a ha)
  · intro hnames i hi
    obtain ⟨a, ha, hname, hsame⟩ := hprepared.exists_result hi
    have hcontent := hcontents (hprepared.pairwise_results hnames) a ha
    rw [hname, hsame] at hcontent
    apply Disk.contentOf_of_grows hgrows₃ _ hcontent
    rw [Disk.place_congr hgrows₂.here]
    exact (o.place_cacheFile_ne w.disk i.descriptor).symm
  · rcases hcached with hcached | ⟨hstaged, hdisk₃⟩
    · exact Or.inl hcached
    · have hne : ¬ ∃ a ∈ results, w.disk.place o.cacheFile =
          w.disk.place (o.snapshotPath a.descriptor) := by
        rintro ⟨a, -, hplace⟩
        exact o.place_cacheFile_ne w.disk a.descriptor hplace
      rw [hdisk₃]
      exact Or.inr ⟨hstaged, fun bytes => Disk.contentOf_of_grows hgrows₂ hne,
        fun bytes => hgrows₂.unchanged _ bytes hne⟩

theorem complete_eq_ok
    {b : CompletedBuild} (h : run (complete env o) w = (.ok b, w'))
    (hflushed : b.flushed ≠ .failed) :
    ∃ content, Completed env o w content b w'.disk := by
  rw [complete_eq] at h
  obtain ⟨b', w₁, hbuild, hrest⟩ := run_bind_eq_ok.mp h
  obtain ⟨fingerprint, w₂, hfingerprint, hrest⟩ := run_bind_eq_ok.mp hrest
  cases hrest
  obtain ⟨rfl, -, hdisk⟩ := fingerprint_eq_ok hfingerprint
  rw [hdisk]
  exact untilFlushed_eq_ok hbuild hflushed

end Build

end SqlSnapshot
