import SqlSnapshot.Proofs.Build.Incremental
import SqlSnapshot.Proofs.Cache.LastWrite

/-!
# Procedures built together

The procedures of a build share what it remembers: the dates and the tables that it asked for, and
the cache.  A build without the cache leaves for each of its procedures a snapshot and a cache entry
that are functions of the catalog and the procedure, and so what else is built does not matter.
-/

namespace SqlSnapshot

/-- The entry that a build without the cache records for a procedure. -/
def Catalog.entryOf (c : Catalog) (now : Timestamp) (p : ProcedureRow) : CacheEntry where
  schema := p.schema
  name := p.name
  lastModified := p.modified
  snapshotHash := some (Sha256.hex (c.snapshotBytes p))
  snapshotFile := some (Snapshot.fileName p.descriptor)
  lastAnalyzed := now
  dependencies := c.collectedDependencies p

/-- The entry of a procedure in the cache file of a project. -/
def Disk.cachedEntry? (d : Disk) (o : Options) (name : Descriptor) : Option CacheEntry :=
  (CacheEntries.ofFile (d.contentOf o.cacheFile).toOption).get? name

theorem CacheEntries.last?_eq_some
    {es : List CacheEntry} {name : Descriptor} {e : CacheEntry}
    (hmem : ∃ f ∈ es, f.descriptor.same name = true)
    (hall : ∀ f ∈ es, f.descriptor.same name = true → f = e) :
    last? es name = some e := by
  obtain ⟨f, hf, hsame⟩ := hmem
  cases hlast : last? es name with
  | none =>
    have hempty := List.getLast?_eq_none_iff.mp hlast
    have hthere : f ∈ es.filter (·.descriptor.same name) := List.mem_filter.mpr ⟨hf, hsame⟩
    rw [hempty] at hthere
    cases hthere
  | some g =>
    obtain ⟨hg, hgname⟩ := List.mem_filter.mp (List.mem_of_getLast? hlast)
    rw [hall g hg hgname]

namespace Build

variable {env : Conditions} {o : Options} {w w' : World} {content : Option ByteArray}
  {b : CompletedBuild} {d : Disk} {i : CollectionItem} {p : ProcedureRow}

theorem analyze_of_noCache
    (hnoCache : o.noCache = true)
    (h : i.Describes env o ((Cache.load o content).lookup? o p.descriptor) d p) :
    i.decision = .analyze := by
  rcases h.chosen with hanalyze | hreuse
  · exact hanalyze
  · obtain ⟨e, hlookup, -⟩ := h.reused hreuse
    simp [Cache.lookup?, hnoCache] at hlookup

/-! ## Snapshots -/

theorem grows_of_flushCache
    {written : WrittenSnapshots} {outcome : FlushOutcome}
    (hdirectory : w.cache.directory = some o.cacheDirectory)
    (h : run (flushCache env written) w = (.ok outcome, w')) :
    Disk.Grows (· = w.disk.place o.cacheFile) w.disk w'.disk := by
  by_cases hfailed : outcome = .failed
  · exact flushCache_eq_failed hdirectory (hfailed ▸ h) _
  · exact (flushCache_eq_ok hdirectory h hfailed).1

/-- A build without the cache leaves the snapshot that the catalog has of a procedure, whether or
not its cache file could be written. -/
theorem contentOf_of_complete
    (hdistinct : env.catalog.HasDistinctProcedures) (hnamed : env.catalog.NamesFiles)
    (hnoCache : o.noCache = true) (h : run (complete env o) w = (.ok b, w'))
    (hp : env.catalog.Selects o p) :
    w'.disk.contentOf (o.snapshotPath p.descriptor) = .ok (env.catalog.snapshotBytes p) := by
  rw [complete_eq] at h
  obtain ⟨b', v, hbuild, hrest⟩ := run_bind_eq_ok.mp h
  obtain ⟨fingerprint, v', hfingerprint, hrest⟩ := run_bind_eq_ok.mp hrest
  cases hrest
  obtain ⟨-, -, hdisk⟩ := fingerprint_eq_ok hfingerprint
  obtain ⟨⟨found, results⟩, w₁, hprepare, hrest⟩ := run_bind_eq_ok.mp hbuild
  obtain ⟨content, hprepared⟩ := prepare_eq_ok hprepare
  obtain ⟨⟨written, issues⟩, w₂, hwrite, hrest⟩ := run_bind_eq_ok.mp hrest
  obtain ⟨-, -, -, -, hcache, hcontents⟩ := writePhase_eq_ok hprepared.tablesAgree hwrite
  obtain ⟨flushed, w₃, hflush, hrest⟩ := run_bind_eq_ok.mp hrest
  cases hrest
  have hgrows := grows_of_flushCache (hcache ▸ hprepared.cacheDirectory) hflush
  obtain ⟨i, hi, hdescribes⟩ := hprepared.selected.exists_item hdistinct hp
  have hmem := mem_decided_analyze_iff.mpr ⟨hi, analyze_of_noCache hnoCache hdescribes⟩
  obtain ⟨a, ha, hname, hsame⟩ := hprepared.exists_result hmem
  have hcontent := hcontents
    (hprepared.pairwise_results (hprepared.selected.pairwise_fileName hnamed)) a ha
  rw [hname, hsame, hdescribes.snapshotBytes_eq, hdescribes.descriptor] at hcontent
  rw [hdisk]
  exact Disk.contentOf_of_grows hgrows (o.place_cacheFile_ne w₂.disk p.descriptor).symm hcontent

/-! ## Cache entries -/

theorem Selected.content_of_isFresh
    {found : Collection} (h : Selected env o w content found) (hfresh : w.disk.IsFresh o) :
    content = none := by
  cases content with
  | none => rfl
  | some bytes => exact absurd (Disk.node?_of_contentOf (h.loaded bytes rfl)) (hfresh bytes)

/-- Without the cache every entry that is staged is that of the catalog. -/
theorem Completed.eq_entryOf
    (h : Completed env o w content b d) (hnoCache : o.noCache = true) {e : CacheEntry}
    (he : e ∈ Completed.entries env o content b) :
    ∃ p ∈ env.catalog.rows, e = env.catalog.entryOf env.now p := by
  have hanalyzed : ∀ i ∈ b.found.chosen, ∃ p ∈ env.catalog.rows, i.decision = .analyze ∧
      i.Describes env o ((Cache.load o content).lookup? o p.descriptor) w.disk p := by
    intro i hi
    obtain ⟨p, hp, hdescribes⟩ := h.selected.exists_row hi
    exact ⟨p, hp, analyze_of_noCache hnoCache hdescribes, hdescribes⟩
  rcases List.mem_append.mp he with he | he
  · obtain ⟨i, hi, -⟩ := List.mem_filterMap.mp he
    obtain ⟨hchosen, hreuse⟩ := mem_decided_reuse_iff.mp hi
    obtain ⟨p, -, hanalyze, -⟩ := hanalyzed i hchosen
    rw [hreuse] at hanalyze
    cases hanalyze
  · obtain ⟨a, ha, hentry⟩ := List.mem_filterMap.mp he
    obtain ⟨i, hi, rfl⟩ := List.mem_map.mp (h.written.mem_iff.mp ha)
    obtain ⟨p, hp, -, hdescribes⟩ := hanalyzed i (mem_decided_analyze_iff.mp hi).1
    refine ⟨p, hp, ?_⟩
    rw [analysisRecord?_withSnapshot, hdescribes.lastModified, Option.map_some,
      hdescribes.snapshotBytes_eq, hdescribes.dependencies, hdescribes.descriptor,
      Catalog.canonical_collectedDependencies] at hentry
    exact (Option.some.inj hentry).symm

/-- After a build without the cache in a project that had none, the cache file has the entry that
the catalog has of a procedure. -/
theorem Completed.cachedEntry?_eq
    (h : Completed env o w content b d) (hdistinct : env.catalog.HasDistinctProcedures)
    (hdated : env.catalog.IsDated) (hnow : env.now.IsInstant) (hnoCache : o.noCache = true)
    (hfresh : w.disk.IsFresh o) (hp : env.catalog.Selects o p) :
    d.cachedEntry? o p.descriptor = some (env.catalog.entryOf env.now p) := by
  obtain rfl := h.selected.content_of_isFresh hfresh
  obtain ⟨i, hi, hdescribes⟩ := h.selected.exists_item hdistinct hp
  obtain ⟨e, he, hname⟩ := h.exists_entry hi
  rw [hdescribes.descriptor] at hname
  have hlast : CacheEntries.last? (Completed.entries env o none b) p.descriptor =
      some (env.catalog.entryOf env.now p) := by
    apply CacheEntries.last?_eq_some ⟨e, he, hname ▸ Descriptor.same_refl _⟩
    intro f hf hsame
    obtain ⟨q, hq, rfl⟩ := h.eq_entryOf hnoCache hf
    rw [hdistinct.eq_of_same hq (Catalog.mem_rows_of_selects hp) hsame]
  have hstaged : (Completed.cache env o none b).staged.get? p.descriptor =
      some (env.catalog.entryOf env.now p) := by
    rw [Completed.cache, Cache.get?_staged_foldl_stage, hlast]
    rfl
  have hwellFormed := h.isWellFormed_cache hdated hnow
  rcases h.cached with hcached | ⟨hnone, -⟩
  · have hread : CacheEntries.ofFile (d.contentOf o.cacheFile).toOption =
        (Completed.cache env o none b).merged := by
      rw [hcached]
      exact CacheEntries.ofFile_fileText hwellFormed.merged
    rw [Disk.cachedEntry?, hread, Cache.get?_merged hwellFormed, hstaged]
    rfl
  · have hempty : (Completed.cache env o none b).staged = [] := hnone
    rw [hempty] at hstaged
    cases hstaged

/-- Two builds of one catalog without the cache, in projects that had none, leave the same snapshot
of a procedure that both select, and cache entries that differ at most in the time of the
analysis. -/
theorem snapshot_independent
    {env' : Conditions} {o' : Options} {v v' : World} {b' : CompletedBuild}
    (hcatalog : env'.catalog = env.catalog) (hdistinct : env.catalog.HasDistinctProcedures)
    (hnamed : env.catalog.NamesFiles) (hdated : env.catalog.IsDated)
    (hnow : env.now.IsInstant) (hnow' : env'.now.IsInstant)
    (hnoCache : o.noCache = true) (hnoCache' : o'.noCache = true)
    (hfresh : w.disk.IsFresh o) (hfresh' : v.disk.IsFresh o')
    (hp : env.catalog.Selects o p) (hp' : env.catalog.Selects o' p)
    (h : run (complete env o) w = (.ok b, w')) (h' : run (complete env' o') v = (.ok b', v')) :
    ∃ (bytes : ByteArray) (entry : CacheEntry),
      w'.disk.contentOf (o.snapshotPath p.descriptor) = .ok bytes ∧
      v'.disk.contentOf (o'.snapshotPath p.descriptor) = .ok bytes ∧
      (b.flushed ≠ .failed →
        w'.disk.cachedEntry? o p.descriptor = some { entry with lastAnalyzed := env.now }) ∧
      (b'.flushed ≠ .failed →
        v'.disk.cachedEntry? o' p.descriptor = some { entry with lastAnalyzed := env'.now }) := by
  refine ⟨env.catalog.snapshotBytes p, env.catalog.entryOf env.now p,
    contentOf_of_complete hdistinct hnamed hnoCache h hp, ?_, ?_, ?_⟩
  · rw [← hcatalog] at hdistinct hnamed hp' ⊢
    exact contentOf_of_complete hdistinct hnamed hnoCache' h' hp'
  · intro hflushed
    obtain ⟨content, hcompleted⟩ := complete_eq_ok h hflushed
    exact hcompleted.cachedEntry?_eq hdistinct hdated hnow hnoCache hfresh hp
  · intro hflushed
    obtain ⟨content, hcompleted⟩ := complete_eq_ok h' hflushed
    rw [← hcatalog] at hdistinct hdated hp' ⊢
    exact hcompleted.cachedEntry?_eq hdistinct hdated hnow' hnoCache' hfresh' hp'

end Build

/-! ## A sample -/

/-- The sample project, built without its cache. -/
def Options.sampleClean : Options where
  projectRoot := "/p"
  noCache := true

/-- The procedures of `sales` in the sample project, built without its cache. -/
def Options.sampleSales : Options where
  projectRoot := "/p"
  schemas := ["sales"]
  noCache := true

theorem Catalog.selects_sampleSales :
    Catalog.sample.Selects .sampleSales ⟨"Stock", "Take", 2, ⟨2000, 0⟩⟩ := by
  have hrefers : Catalog.sample.Refers ⟨"sales", "Ship", 1, ⟨1000, 0⟩⟩
      ⟨"Stock", "Take", 2, ⟨2000, 0⟩⟩ :=
    ⟨by decide +kernel, ⟨"Sales", "Ship", "stock", "take", none⟩, by decide +kernel,
      by decide +kernel⟩
  exact ⟨_, by decide +kernel, by decide +kernel, .single hrefers⟩

theorem Disk.isFresh_sample
    {o : Options} (hroot : o.projectRoot = Options.sample.projectRoot) :
    Disk.sample.IsFresh o := by
  intro bytes hbytes
  have hnone : (Disk.sample.node? (Disk.sample.place Options.sample.cacheFile)).isNone = true := by
    decide +kernel
  rw [← Options.cacheFile_congr hroot, hbytes] at hnone
  cases hnone

/-- `Stock.Take` is selected among all procedures, and where only `sales` is allowed for the
reference to it. -/
theorem Build.snapshot_independent_sample :
    ∃ b w b' w' bytes, ∃ entry : CacheEntry,
      run (complete (.calm .sample ⟨5000, 0⟩) .sampleSales) .sample = (.ok b, w) ∧
      run (complete (.calm .sample ⟨9500, 0⟩) .sampleClean) .sample = (.ok b', w') ∧
      w.disk.contentOf (Options.sampleSales.snapshotPath ⟨"Stock", "Take"⟩) = .ok bytes ∧
      w'.disk.contentOf (Options.sampleClean.snapshotPath ⟨"Stock", "Take"⟩) = .ok bytes ∧
      w.disk.cachedEntry? .sampleSales ⟨"Stock", "Take"⟩ =
        some { entry with lastAnalyzed := ⟨5000, 0⟩ } ∧
      w'.disk.cachedEntry? .sampleClean ⟨"Stock", "Take"⟩ =
        some { entry with lastAnalyzed := ⟨9500, 0⟩ } := by
  have hselects : Catalog.sample.Selects .sampleClean ⟨"Stock", "Take", 2, ⟨2000, 0⟩⟩ :=
    Catalog.selects_sample rfl (by decide +kernel)
  obtain ⟨b, w, hrun, hflushed, -⟩ := exists_complete_sample (c := .sample) rfl ⟨5000, 0⟩
    (o := .sampleSales) rfl (w := .sample) rfl (.refl _)
  obtain ⟨b', w', hrun', hflushed', -⟩ := exists_complete_sample (c := .sample) rfl ⟨9500, 0⟩
    (o := .sampleClean) rfl (w := .sample) rfl (.refl _)
  have hcatalog : (Conditions.calm .sample ⟨9500, 0⟩).catalog =
      (Conditions.calm .sample ⟨5000, 0⟩).catalog := rfl
  have hnow : (Conditions.calm .sample ⟨5000, 0⟩).now.IsInstant := by decide +kernel
  have hnow' : (Conditions.calm .sample ⟨9500, 0⟩).now.IsInstant := by decide +kernel
  have hfresh : World.sample.disk.IsFresh .sampleSales := Disk.isFresh_sample rfl
  have hfresh' : World.sample.disk.IsFresh .sampleClean := Disk.isFresh_sample rfl
  obtain ⟨bytes, entry, hbytes, hbytes', hentry, hentry'⟩ := snapshot_independent hcatalog
    Catalog.hasDistinctProcedures_sample
    (Catalog.isTimeline_sample.namesFiles .sample (by simp)) Catalog.isDated_sample hnow hnow' rfl
    rfl hfresh hfresh' Catalog.selects_sampleSales hselects hrun hrun'
  exact ⟨b, w, b', w', bytes, entry, hrun, hrun', hbytes, hbytes', hentry hflushed,
    hentry' hflushed'⟩

end SqlSnapshot
