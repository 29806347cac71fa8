import SqlSnapshot.Proofs.Build.Complete

/-!
# What a build records

After a build whose cache is not lost, the cache file says of every selected procedure what the
build found: its modify date, its dependencies, and the file that holds its snapshot.  This is so
whether the cache file was written or had nothing new to take, and whatever it held before.
-/

namespace SqlSnapshot

/-! ## Dates of a catalog -/

/-- All dates of the catalog are instants. -/
structure Catalog.IsDated (c : Catalog) : Prop where
  rows : ∀ p ∈ c.rows, p.modified.IsInstant
  objects : ∀ x ∈ c.objects, ∀ t, x.modified = some t → t.IsInstant

namespace Catalog

variable {c : Catalog} {p : ProcedureRow}

theorem IsDated.lastModified?
    (h : c.IsDated) {kind : DependencyKind} {schema name : String} {t : Timestamp}
    (ht : c.lastModified? kind schema name = some t) :
    t.IsInstant := by
  unfold Catalog.lastModified? at ht
  dsimp only at ht
  split at ht
  · obtain ⟨row, hrow, rfl⟩ := Option.map_eq_some_iff.mp ht
    exact h.rows row (List.mem_of_find?_eq_some hrow)
  · obtain ⟨x, hx, ht⟩ := Option.bind_eq_some_iff.mp ht
    exact h.objects x (List.mem_of_find?_eq_some hx) t ht

theorem IsDated.dateOf
    (h : c.IsDated) {kind : DependencyKind} {e : DependencyEdge} {t : Timestamp}
    (ht : c.dateOf kind e = some t) :
    t.IsInstant := by
  unfold Catalog.dateOf at ht
  split at ht
  · rename_i row hrow
    split at hrow
    · rw [← Option.some.inj ht]
      exact h.rows row (ReferenceGraph.mem_of_row?_eq_some hrow).1
    · contradiction
  · exact h.lastModified? ht

theorem IsDated.collectedDependencies
    (h : c.IsDated) {d : Dependency} (hd : d ∈ c.collectedDependencies p) :
    d.IsDated := by
  obtain ⟨e, -, he⟩ := List.mem_filterMap.mp (Dependency.mem_of_mem_canonical hd)
  unfold dependency? at he
  split at he
  · contradiction
  · obtain ⟨kind, -, rfl⟩ := Option.map_eq_some_iff.mp he
    intro t ht
    exact h.dateOf ht

theorem isDated_sample : Catalog.sample.IsDated :=
  ⟨by decide +kernel, by simp [sample]⟩

theorem isDated_sampleLater : Catalog.sampleLater.IsDated :=
  ⟨by decide +kernel, by simp [sampleLater, sample, putProcedure]⟩

theorem canonical_collectedDependencies
    (c : Catalog) (p : ProcedureRow) :
    Dependency.canonical (c.collectedDependencies p) = c.collectedDependencies p :=
  Dependency.canonical_canonical _

end Catalog

namespace CollectionItem

variable {i : CollectionItem}

/-- The file of the snapshot that a build records for the item. -/
def recordedFile (i : CollectionItem) : Option String :=
  if i.decision = .reuse then i.cachedFile else some (Snapshot.fileName i.descriptor)

/-- The digest of the snapshot that a build records for the item. -/
def recordedHash (c : Catalog) (i : CollectionItem) : Option String :=
  if i.decision = .reuse then i.cachedHash
  else some (Sha256.hex (Snapshot.ofAnalysis (i.analysis c)).canonicalBytes)

theorem recordedFile_of_reuse
    (h : i.decision = .reuse) :
    i.recordedFile = i.cachedFile :=
  if_pos h

theorem recordedFile_of_analyze
    (h : i.decision = .analyze) :
    i.recordedFile = some (Snapshot.fileName i.descriptor) :=
  if_neg (by simp [h])

theorem recordedHash_of_reuse
    (h : i.decision = .reuse) (c : Catalog) :
    i.recordedHash c = i.cachedHash :=
  if_pos h

theorem recordedHash_of_analyze
    (h : i.decision = .analyze) (c : Catalog) :
    i.recordedHash c = some (Sha256.hex (Snapshot.ofAnalysis (i.analysis c)).canonicalBytes) :=
  if_neg (by simp [h])

/-- The entry is the one that a build records for the item. -/
structure IsRecordedBy (c : Catalog) (i : CollectionItem) (e : CacheEntry) : Prop where
  descriptor : e.descriptor = i.descriptor
  lastModified : i.lastModified = some e.lastModified
  snapshotHash : e.snapshotHash = i.recordedHash c
  snapshotFile : e.snapshotFile = i.recordedFile
  dependencies : e.dependencies = i.dependencies

end CollectionItem

namespace Build

variable {env : Conditions} {o : Options} {w : World} {content : Option ByteArray}
  {b : CompletedBuild} {d : Disk} {i j : CollectionItem}

theorem Selected.exists_row
    {found : Collection} (h : Selected env o w content found) (hi : i ∈ found.chosen) :
    ∃ p ∈ env.catalog.rows,
      i.Describes env o ((Cache.load o content).lookup? o p.descriptor) w.disk p := by
  obtain ⟨p, hp, hdescribes⟩ := exists_left_of_forall₂ h.described hi
  exact ⟨p, Catalog.mem_rows_of_mem_selectedRows hp, hdescribes⟩

theorem Selected.exists_item
    {found : Collection} (h : Selected env o w content found)
    (hdistinct : env.catalog.HasDistinctProcedures) {p : ProcedureRow}
    (hp : env.catalog.Selects o p) :
    ∃ i ∈ found.chosen,
      i.Describes env o ((Cache.load o content).lookup? o p.descriptor) w.disk p :=
  exists_right_of_forall₂ h.described (hdistinct.mem_selectedRows_iff.mpr hp)

theorem Selected.analyze_of_missing
    {found : Collection} (h : Selected env o w content found)
    (hmissing : ∀ bytes, w.disk.contentOf o.cacheFile ≠ .ok bytes) (hi : i ∈ found.chosen) :
    i.decision = .analyze := by
  obtain ⟨p, -, hdescribes⟩ := h.exists_row hi
  rcases hdescribes.chosen with hanalyze | hreuse
  · exact hanalyze
  · obtain ⟨e, hlookup, -⟩ := hdescribes.reused hreuse
    cases content with
    | none => simp [Cache.lookup?, Cache.get?, Cache.load, CacheEntries.ofFile] at hlookup
    | some bytes => exact absurd (h.loaded bytes rfl) (hmissing bytes)

theorem Selected.map_descriptor_chosen
    {found : Collection} (h : Selected env o w content found) :
    (found.chosen.map (·.descriptor)) = (env.catalog.selectedRows o).map (·.descriptor) := by
  rw [eq_comm, ← List.forall₂_eq_eq_eq, List.forall₂_map_left_iff, List.forall₂_map_right_iff]
  exact h.described.imp fun p i hdescribes => hdescribes.descriptor.symm

theorem Selected.pairwise_chosen
    {found : Collection} (h : Selected env o w content found) :
    found.chosen.Pairwise fun i j => i.descriptor.orderKey < j.descriptor.orderKey := by
  have hrows := env.catalog.pairwise_selectedRows o
  rw [← List.pairwise_map (f := ProcedureRow.descriptor)
    (R := fun d e : Descriptor => d.orderKey < e.orderKey), ← h.map_descriptor_chosen] at hrows
  rwa [List.pairwise_map] at hrows

theorem Selected.eq_of_same
    {found : Collection} (h : Selected env o w content found) (hi : i ∈ found.chosen)
    (hj : j ∈ found.chosen) (hsame : i.descriptor.same j.descriptor = true) :
    i = j :=
  eq_of_pairwise_ne (h.pairwise_chosen.imp ne_of_lt) hi hj ((Descriptor.same_iff _ _).mp hsame)

theorem mem_decided_analyze_iff
    {found : Collection} :
    i ∈ found.decided .analyze ↔ i ∈ found.chosen ∧ i.decision = .analyze := by
  rw [Collection.decided_eq_filter_chosen found (by simp), List.mem_filter]
  simp

theorem mem_decided_reuse_iff
    {found : Collection} :
    i ∈ found.decided .reuse ↔ i ∈ found.chosen ∧ i.decision = .reuse := by
  rw [Collection.decided_eq_filter_chosen found (by simp), List.mem_filter]
  simp

theorem analysisRecord?_withSnapshot
    (c : Catalog) (now : Timestamp) (i : CollectionItem) :
    Cache.analysisRecord? now (withSnapshot (i.analysis c)) =
      i.lastModified.map fun lastModified => {
        schema := i.descriptor.schema
        name := i.descriptor.name
        lastModified
        snapshotHash := some (Sha256.hex (Snapshot.ofAnalysis (i.analysis c)).canonicalBytes)
        snapshotFile := some (Snapshot.fileName i.descriptor)
        lastAnalyzed := now
        dependencies := Dependency.canonical i.dependencies } := by
  simp only [Cache.analysisRecord?, withSnapshot, CollectionItem.descriptor_analysis,
    CollectionItem.lastModified_analysis, CollectionItem.dependencies_analysis]

/-- The entries that a build stages. -/
def Completed.entries (env : Conditions) (o : Options) (content : Option ByteArray)
    (b : CompletedBuild) : List CacheEntry :=
  recordedEntries env (Cache.load o content).loaded b.found b.written

theorem Completed.exists_item
    (h : Completed env o w content b d) (hdated : env.catalog.IsDated)
    (hnow : env.now.IsInstant) {e : CacheEntry} (he : e ∈ Completed.entries env o content b) :
    ∃ i ∈ b.found.chosen, i.IsRecordedBy env.catalog e ∧ e.IsWellFormed := by
  have hitem : ∀ i ∈ b.found.chosen, (∀ x ∈ i.dependencies, x.IsDated) ∧
      Dependency.canonical i.dependencies = i.dependencies ∧
      ∀ t, i.lastModified = some t → t.IsInstant := by
    intro i hi
    obtain ⟨p, hp, hdescribes⟩ := h.selected.exists_row hi
    rw [hdescribes.dependencies, hdescribes.lastModified]
    refine ⟨fun x => hdated.collectedDependencies,
      env.catalog.canonical_collectedDependencies p, ?_⟩
    rintro t heq
    rw [← Option.some.inj heq]
    exact hdated.rows p hp
  rcases List.mem_append.mp he with he | he
  · obtain ⟨i, hi, hentry⟩ := List.mem_filterMap.mp he
    obtain ⟨hchosen, hreuse⟩ := mem_decided_reuse_iff.mp hi
    obtain ⟨hdeps, hcanonical, hinstant⟩ := hitem i hchosen
    obtain ⟨t, ht, rfl⟩ := Option.map_eq_some_iff.mp hentry
    refine ⟨i, hchosen, ⟨rfl, ht, ?_, ?_, hcanonical⟩, ⟨hinstant t ht, ?_, ?_, ?_⟩⟩
    · rw [CollectionItem.recordedHash_of_reuse hreuse]
    · rw [CollectionItem.recordedFile_of_reuse hreuse]
    · dsimp only
      cases hloaded : (Cache.load o content).loaded.get? i.descriptor with
      | none => exact hnow
      | some old =>
        exact ((Cache.isWellFormed_load o content).loaded.entries old
          (CacheEntries.mem_of_get?_eq_some hloaded)).lastAnalyzed
    · dsimp only
      rw [hcanonical]
      exact hdeps
    · exact Dependency.canonical_canonical _
  · obtain ⟨a, ha, hentry⟩ := List.mem_filterMap.mp he
    obtain ⟨i, hi, rfl⟩ := List.mem_map.mp (h.written.mem_iff.mp ha)
    obtain ⟨hchosen, hanalyze⟩ := mem_decided_analyze_iff.mp hi
    obtain ⟨hdeps, hcanonical, hinstant⟩ := hitem i hchosen
    rw [analysisRecord?_withSnapshot] at hentry
    obtain ⟨t, ht, rfl⟩ := Option.map_eq_some_iff.mp hentry
    refine ⟨i, hchosen, ⟨rfl, ht, ?_, ?_, hcanonical⟩, ⟨hinstant t ht, hnow, ?_, ?_⟩⟩
    · rw [CollectionItem.recordedHash_of_analyze hanalyze]
    · rw [CollectionItem.recordedFile_of_analyze hanalyze]
    · dsimp only
      rw [hcanonical]
      exact hdeps
    · exact Dependency.canonical_canonical _

theorem Completed.exists_entry
    (h : Completed env o w content b d) (hi : i ∈ b.found.chosen) :
    ∃ e ∈ Completed.entries env o content b, e.descriptor = i.descriptor := by
  obtain ⟨p, -, hdescribes⟩ := h.selected.exists_row hi
  rcases hdescribes.chosen with hanalyze | hreuse
  · have hmem := mem_decided_analyze_iff.mpr ⟨hi, hanalyze⟩
    have hwritten : withSnapshot (i.analysis env.catalog) ∈
        b.written.updated ++ b.written.unchanged :=
      h.written.mem_iff.mpr (List.mem_map_of_mem hmem)
    have hentry := analysisRecord?_withSnapshot env.catalog env.now i
    rw [hdescribes.lastModified, Option.map_some] at hentry
    exact ⟨_, List.mem_append_right _ (List.mem_filterMap.mpr ⟨_, hwritten, hentry⟩), rfl⟩
  · have hmem := mem_decided_reuse_iff.mpr ⟨hi, hreuse⟩
    obtain ⟨e, hentry, hname⟩ : ∃ e, Cache.reuseRecord? (Cache.load o content).loaded env.now i =
        some e ∧ e.descriptor = i.descriptor := by
      rw [Cache.reuseRecord?, hdescribes.lastModified, Option.map_some]
      exact ⟨_, rfl, rfl⟩
    exact ⟨e, List.mem_append_left _ (List.mem_filterMap.mpr ⟨i, hmem, hentry⟩), hname⟩

/-- The cache with everything that a build staged. -/
def Completed.cache (env : Conditions) (o : Options) (content : Option ByteArray)
    (b : CompletedBuild) : Cache :=
  (Completed.entries env o content b).foldl Cache.stage (Cache.load o content)

theorem Completed.isWellFormed_cache
    (h : Completed env o w content b d) (hdated : env.catalog.IsDated) (hnow : env.now.IsInstant) :
    (Completed.cache env o content b).IsWellFormed := by
  apply (Cache.isWellFormed_load o content).foldl_stage
  intro e he
  obtain ⟨i, -, -, hwellFormed⟩ := h.exists_item hdated hnow he
  exact hwellFormed

theorem Completed.fingerprint?_cache
    (h : Completed env o w content b d) (hdated : env.catalog.IsDated) (hnow : env.now.IsInstant)
    (hi : i ∈ b.found.chosen) :
    ∃ e, i.IsRecordedBy env.catalog e ∧
      (Completed.cache env o content b).fingerprint? i.descriptor = some e.fingerprint := by
  obtain ⟨e, he, hdescriptor⟩ := h.exists_entry hi
  have hwellFormed : ∀ f ∈ Completed.entries env o content b, f.IsWellFormed := by
    intro f hf
    obtain ⟨j, -, -, hf⟩ := h.exists_item hdated hnow hf
    exact hf
  have hagree : ∀ f ∈ Completed.entries env o content b,
      ∀ g ∈ Completed.entries env o content b, f.descriptor.same g.descriptor = true →
        f.fingerprint = g.fingerprint := by
    intro f hf g hg hsame
    obtain ⟨j, hj, hrecordedf, -⟩ := h.exists_item hdated hnow hf
    obtain ⟨k, hk, hrecordedg, -⟩ := h.exists_item hdated hnow hg
    rw [hrecordedf.descriptor, hrecordedg.descriptor] at hsame
    obtain rfl := h.selected.eq_of_same hj hk hsame
    have hdate : f.lastModified = g.lastModified :=
      Option.some.inj (hrecordedf.lastModified.symm.trans hrecordedg.lastModified)
    rw [CacheEntry.fingerprint, CacheEntry.fingerprint, hdate, hrecordedf.snapshotHash,
      hrecordedg.snapshotHash, hrecordedf.snapshotFile, hrecordedg.snapshotFile,
      hrecordedf.dependencies, hrecordedg.dependencies]
  obtain ⟨j, hj, hrecorded, -⟩ := h.exists_item hdated hnow he
  have hsame : i.descriptor.same j.descriptor = true := by
    rw [← hdescriptor, hrecorded.descriptor]
    exact Descriptor.same_refl _
  obtain rfl := h.selected.eq_of_same hi hj hsame
  refine ⟨e, hrecorded, ?_⟩
  rw [← hdescriptor]
  exact Cache.fingerprint?_foldl_stage_of_mem (Cache.isWellFormed_load o content) hwellFormed
    hagree he

/-- What the cache file holds after a build that had something to record. -/
theorem Completed.ofFile_cacheFile
    (h : Completed env o w content b d) (hdated : env.catalog.IsDated) (hnow : env.now.IsInstant)
    (hsome : (Completed.cache env o content b).merged ≠ []) :
    ∃ bytes, d.contentOf o.cacheFile = .ok bytes ∧
      CacheEntries.ofFile (some bytes) = (Completed.cache env o content b).merged := by
  rcases h.cached with hcached | ⟨hstaged, hkept, -⟩
  · exact ⟨_, hcached, CacheEntries.ofFile_fileText (h.isWellFormed_cache hdated hnow).merged⟩
  · have hloaded : (Completed.cache env o content b).merged = CacheEntries.ofFile content :=
      Cache.merged_foldl_stage_of_unstaged hstaged
    cases content with
    | none =>
      rw [hloaded] at hsome
      exact absurd rfl hsome
    | some bytes =>
      exact ⟨bytes, hkept bytes (h.selected.loaded bytes rfl), hloaded.symm⟩

/-- After a build the cache file says of every chosen item what the build found. -/
theorem Completed.exists_cached
    (h : Completed env o w content b d) (hdated : env.catalog.IsDated) (hnow : env.now.IsInstant)
    (hi : i ∈ b.found.chosen) :
    ∃ bytes e, d.contentOf o.cacheFile = .ok bytes ∧
      CacheEntries.get? (CacheEntries.ofFile (some bytes)) i.descriptor = some e ∧
      i.lastModified = some e.lastModified ∧ e.snapshotHash = i.recordedHash env.catalog ∧
      e.snapshotFile = i.recordedFile ∧ e.dependencies = i.dependencies := by
  obtain ⟨e, hrecorded, hprint⟩ := h.fingerprint?_cache hdated hnow hi
  obtain ⟨f, hf, hsame⟩ := Option.map_eq_some_iff.mp hprint
  simp only [CacheEntry.fingerprint, Fingerprint.mk.injEq] at hsame
  obtain ⟨hdate, hhash, hfile, hdependencies⟩ := hsame
  have hsome : (Completed.cache env o content b).merged ≠ [] := by
    intro hempty
    rw [hempty] at hf
    simp at hf
  obtain ⟨bytes, hbytes, hentries⟩ := h.ofFile_cacheFile hdated hnow hsome
  refine ⟨bytes, f, hbytes, hentries ▸ hf, ?_, ?_, ?_, ?_⟩
  · rw [hdate, hrecorded.lastModified]
  · rw [hhash, hrecorded.snapshotHash]
  · rw [hfile, hrecorded.snapshotFile]
  · rw [hdependencies, hrecorded.dependencies]

theorem Completed.isFile_recordedFile
    (h : Completed env o w content b d) (hi : i ∈ b.found.chosen) :
    ∃ file, i.recordedFile = some file ∧ d.isFile (Path.join o.schemaDirectory file) = true := by
  obtain ⟨p, -, hdescribes⟩ := h.selected.exists_row hi
  rcases hdescribes.chosen with hanalyze | hreuse
  · refine ⟨_, CollectionItem.recordedFile_of_analyze hanalyze, ?_⟩
    exact h.files i (mem_decided_analyze_iff.mpr ⟨hi, hanalyze⟩)
  · obtain ⟨e, hcached, -, file, hfile, hthere⟩ := hdescribes.reused hreuse
    refine ⟨file, ?_, Disk.isFile_of_grows h.grows hthere⟩
    rw [CollectionItem.recordedFile_of_reuse hreuse, hdescribes.cachedFile, hcached]
    exact hfile

end Build

end SqlSnapshot
