import SqlSnapshot.Proofs.Build.Success
import SqlSnapshot.Proofs.Build.Timeline

/-!
# Incremental builds

A cache is faithful when every entry says what some past catalog said of its procedure, whose
snapshot as of then lies in the recorded file.  A build keeps the cache faithful: what it analyzes
it records as it is, what it reuses has not changed, and it writes no file of another procedure.
Over any run of builds the snapshots are therefore those of a clean build.
-/

namespace SqlSnapshot

/-- The fingerprint of a procedure is that of a past catalog, whose snapshot lies in the file. -/
def Fingerprint.IsFaithful (f : Fingerprint) (cs : List Catalog) (o : Options) (d : Disk)
    (name : Descriptor) : Prop :=
  ∃ c ∈ cs, ∃ p ∈ c.rows, p.descriptor.same name = true ∧ f.lastModified = p.modified ∧
    f.dependencies = c.collectedDependencies p ∧
    f.snapshotFile = some (Snapshot.fileName p.descriptor) ∧
    d.contentOf (o.snapshotPath p.descriptor) = .ok (c.snapshotBytes p)

/-- All entries of the cache file are faithful to the past catalogs. -/
def Disk.HasFaithfulCache (d : Disk) (cs : List Catalog) (o : Options) : Prop :=
  ∀ bytes, d.node? (d.place o.cacheFile) = some (.file bytes) →
    ∀ name e, (CacheEntries.ofFile (some bytes)).get? name = some e →
      e.fingerprint.IsFaithful cs o d name

/-- The project has no cache file. -/
def Disk.IsFresh (d : Disk) (o : Options) : Prop :=
  ∀ bytes, d.node? (d.place o.cacheFile) ≠ some (.file bytes)

theorem Disk.HasFaithfulCache.congr
    {d : Disk} {cs : List Catalog} {o o' : Options} (h : d.HasFaithfulCache cs o)
    (hroot : o.projectRoot = o'.projectRoot) :
    d.HasFaithfulCache cs o' := by
  intro bytes hbytes name e he
  rw [← Options.cacheFile_congr hroot] at hbytes
  obtain ⟨c, hc, p, hp, hsame, hmodified, hdependencies, hfile, hcontent⟩ :=
    h bytes hbytes name e he
  rw [Options.snapshotPath_congr hroot] at hcontent
  exact ⟨c, hc, p, hp, hsame, hmodified, hdependencies, hfile, hcontent⟩

theorem Disk.node?_of_contentOf
    {d : Disk} {path : String} {content : ByteArray} (h : d.contentOf path = .ok content) :
    d.node? (d.place path) = some (.file content) := by
  obtain ⟨l, hresolve, hnode⟩ := contentOf_eq_ok_iff.mp h
  rw [← eq_place_of_resolve hresolve]
  exact hnode

namespace Build

variable {env : Conditions} {o : Options} {w w' : World} {content : Option ByteArray}
  {b : CompletedBuild} {d : Disk} {i : CollectionItem} {cs : List Catalog} {name : Descriptor}

/-! ## One build -/

/-- What is reused has an entry in the cache file, which describes it still. -/
theorem Selected.exists_entry_of_reuse
    {found : Collection} (h : Selected env o w content found) (hreuse : i.decision = .reuse)
    {p : ProcedureRow}
    (hdescribes : i.Describes env o ((Cache.load o content).lookup? o p.descriptor) w.disk p) :
    ∃ bytes e, w.disk.node? (w.disk.place o.cacheFile) = some (.file bytes) ∧
      (CacheEntries.ofFile (some bytes)).get? p.descriptor = some e ∧
      i.cachedFile = e.snapshotFile ∧ i.cachedHash = e.snapshotHash ∧
      e.Holds o w.disk p i.dependencies := by
  obtain ⟨e, hlookup, hholds⟩ := hdescribes.reused hreuse
  have hloaded : (Cache.load o content).loaded.get? p.descriptor = some e := by
    unfold Cache.lookup? Cache.get? at hlookup
    split at hlookup
    · cases hlookup
    · split at hlookup
      · exact hlookup
      · cases hlookup
  cases content with
  | none => cases hloaded
  | some bytes =>
    refine ⟨bytes, e, Disk.node?_of_contentOf (h.loaded bytes rfl), hloaded, ?_, ?_, hholds⟩
    · rw [hdescribes.cachedFile, hlookup, Option.bind_some]
    · rw [hdescribes.cachedHash, hlookup, Option.bind_some]

theorem Selected.contentOf_of_reuse
    {found : Collection} (h : Selected env o w content found)
    (htimeline : Catalog.IsTimeline (env.catalog :: cs)) (hcache : w.disk.HasFaithfulCache cs o)
    (hreuse : i.decision = .reuse) {p : ProcedureRow}
    (hp : p ∈ env.catalog.rows)
    (hdescribes : i.Describes env o ((Cache.load o content).lookup? o p.descriptor) w.disk p) :
    i.cachedFile = some (Snapshot.fileName p.descriptor) ∧
      w.disk.contentOf (o.snapshotPath p.descriptor) = .ok (env.catalog.snapshotBytes p) := by
  obtain ⟨bytes, e, hbytes, hentry, hcached, -, hholds⟩ := h.exists_entry_of_reuse hreuse hdescribes
  rw [CacheEntry.holds_iff, hdescribes.dependencies] at hholds
  obtain ⟨hdate, hdependencies, -⟩ := hholds
  obtain ⟨c, hc, q, hq, hsame, hmodified, hpast, hfile, hcontent⟩ :=
    hcache bytes hbytes p.descriptor e hentry
  have hkept : env.catalog.collectedDependencies p = c.collectedDependencies q := by
    have hcollected : e.dependencies = c.collectedDependencies q := hpast
    rw [← hdependencies, hcollected, Catalog.canonical_collectedDependencies]
  have hbefore : q.modified.before p.modified = false := hmodified ▸ hdate
  obtain ⟨hname, hbytes⟩ := htimeline.unchanged hc hp hq
    ((Descriptor.same_comm _ _).trans hsame) hbefore hkept
  have hsnapshot : e.snapshotFile = some (Snapshot.fileName q.descriptor) := hfile
  rw [hname, hbytes, hcached]
  exact ⟨hsnapshot, hcontent⟩

/-- A build writes no snapshot of a procedure that it does not analyze. -/
theorem Completed.contentOf_of_not_analyzed
    (h : Completed env o w content b d) (htimeline : Catalog.IsTimeline (env.catalog :: cs))
    {c : Catalog} (hc : c ∈ env.catalog :: cs) {q : ProcedureRow} (hq : q ∈ c.rows)
    (hnot : ∀ j ∈ b.found.decided .analyze, j.descriptor.same q.descriptor = false)
    {bytes : ByteArray} (hcontent : w.disk.contentOf (o.snapshotPath q.descriptor) = .ok bytes) :
    d.contentOf (o.snapshotPath q.descriptor) = .ok bytes := by
  refine Disk.contentOf_of_grows h.grows ?_ hcontent
  rintro (hplace | ⟨j, hj, hplace⟩)
  · exact o.place_cacheFile_ne w.disk q.descriptor hplace.symm
  · obtain ⟨p, hp, hdescribes⟩ := h.selected.exists_row (mem_decided_analyze_iff.mp hj).1
    rw [hdescribes.descriptor] at hplace
    have hsame := htimeline.named env.catalog List.mem_cons_self c hc p hp q hq
      (o.fileName_eq_of_place w.disk hplace.symm)
    rw [← hdescribes.descriptor, hnot j hj] at hsame
    exact Bool.false_ne_true hsame

theorem Selected.pairwise_fileName
    {found : Collection} (h : Selected env o w content found) (hnamed : env.catalog.NamesFiles) :
    (found.decided .analyze).Pairwise fun i j =>
      Snapshot.fileName i.descriptor ≠ Snapshot.fileName j.descriptor := by
  rw [Collection.decided_eq_filter_chosen _ (by simp)]
  apply (h.pairwise_chosen.imp_of_mem _).filter
  intro j k hj hk hlt hname
  obtain ⟨q, hq, hdescribesq⟩ := h.exists_row hj
  obtain ⟨r, hr, hdescribesr⟩ := h.exists_row hk
  rw [hdescribesq.descriptor, hdescribesr.descriptor] at hname hlt
  have hsame := hnamed q hq r hr hname
  exact hlt.ne ((Descriptor.same_iff _ _).mp hsame)

theorem Completed.contentOf_of_analyzed
    (h : Completed env o w content b d) (hnamed : env.catalog.NamesFiles)
    (hi : i ∈ b.found.chosen) {cached : Option CacheEntry} {p : ProcedureRow}
    (hdescribes : i.Describes env o cached w.disk p) (hanalyze : i.decision = .analyze) :
    d.contentOf (o.snapshotPath p.descriptor) = .ok (env.catalog.snapshotBytes p) := by
  have hcontent := h.contents (h.selected.pairwise_fileName hnamed) i
    (mem_decided_analyze_iff.mpr ⟨hi, hanalyze⟩)
  rwa [hdescribes.snapshotBytes_eq, hdescribes.descriptor] at hcontent

/-- After a build every chosen procedure has the snapshot of its catalog, in the recorded file. -/
theorem Completed.contentOf_of_chosen
    (h : Completed env o w content b d) (htimeline : Catalog.IsTimeline (env.catalog :: cs))
    (hcache : w.disk.HasFaithfulCache cs o) (hi : i ∈ b.found.chosen) {p : ProcedureRow}
    (hp : p ∈ env.catalog.rows)
    (hdescribes : i.Describes env o ((Cache.load o content).lookup? o p.descriptor) w.disk p) :
    i.recordedFile = some (Snapshot.fileName p.descriptor) ∧
      d.contentOf (o.snapshotPath p.descriptor) = .ok (env.catalog.snapshotBytes p) := by
  rcases hdescribes.chosen with hanalyze | hreuse
  · have hnamed := htimeline.namesFiles env.catalog List.mem_cons_self
    rw [CollectionItem.recordedFile_of_analyze hanalyze, hdescribes.descriptor]
    exact ⟨rfl, h.contentOf_of_analyzed hnamed hi hdescribes hanalyze⟩
  · obtain ⟨hfile, hcontent⟩ :=
      h.selected.contentOf_of_reuse htimeline hcache hreuse hp hdescribes
    rw [CollectionItem.recordedFile_of_reuse hreuse]
    refine ⟨hfile, h.contentOf_of_not_analyzed htimeline List.mem_cons_self hp ?_ hcontent⟩
    intro j hj
    obtain ⟨hchosen, hanalyze⟩ := mem_decided_analyze_iff.mp hj
    rw [Bool.eq_false_iff]
    intro hsame
    rw [← hdescribes.descriptor] at hsame
    rw [h.selected.eq_of_same hchosen hi hsame, hreuse] at hanalyze
    cases hanalyze

/-! ## The cache after a build -/

theorem Completed.fingerprint?_cache_of_not_chosen
    (h : Completed env o w content b d) (hdated : env.catalog.IsDated) (hnow : env.now.IsInstant)
    (hnot : ∀ i ∈ b.found.chosen, i.descriptor.same name = false) :
    (Completed.cache env o content b).fingerprint? name =
      ((Cache.load o content).loaded.get? name).map (·.fingerprint) := by
  refine Cache.fingerprint?_foldl_stage_of_not (Cache.isWellFormed_load o content) ?_ ?_
  · intro e he
    obtain ⟨i, -, -, hwellFormed⟩ := h.exists_item hdated hnow he
    exact hwellFormed
  · intro e he
    obtain ⟨i, hi, hrecorded, -⟩ := h.exists_item hdated hnow he
    rw [hrecorded.descriptor]
    exact hnot i hi

/-- The cache file has the fingerprints of the cache, unless nothing was chosen and it was kept. -/
theorem Completed.merged_eq_of_file
    (h : Completed env o w content b d) (hdated : env.catalog.IsDated) (hnow : env.now.IsInstant)
    {bytes : ByteArray} (hbytes : d.node? (d.place o.cacheFile) = some (.file bytes)) :
    (Completed.cache env o content b).merged = CacheEntries.ofFile (some bytes) ∨
      b.found.chosen = [] ∧ w.disk.node? (w.disk.place o.cacheFile) = some (.file bytes) := by
  rcases h.cached with hcached | ⟨hstaged, -, hkept⟩
  · have hnode := Disk.node?_of_contentOf hcached
    rw [hbytes] at hnode
    cases hnode
    exact Or.inl (CacheEntries.ofFile_fileText (h.isWellFormed_cache hdated hnow).merged).symm
  · rw [Disk.place_congr h.grows.here] at hbytes
    have hbefore := hkept bytes hbytes
    have hmerged : (Completed.cache env o content b).merged = (Cache.load o content).loaded :=
      Cache.merged_foldl_stage_of_unstaged hstaged
    cases content with
    | some read =>
      have hread := Disk.node?_of_contentOf (h.selected.loaded read rfl)
      rw [hbefore] at hread
      cases hread
      exact Or.inl hmerged
    | none =>
      refine Or.inr ⟨?_, hbefore⟩
      apply List.eq_nil_iff_forall_not_mem.mpr
      intro i hi
      obtain ⟨e, -, hprint⟩ := h.fingerprint?_cache hdated hnow hi
      rw [Cache.fingerprint?, hmerged] at hprint
      cases hprint

/-- Every entry of the cache file is one that the build recorded for a chosen procedure, or was
there before and is of another procedure. -/
theorem Completed.cached_cases
    (h : Completed env o w content b d) (hdated : env.catalog.IsDated) (hnow : env.now.IsInstant)
    {bytes : ByteArray} (hbytes : d.node? (d.place o.cacheFile) = some (.file bytes))
    {e : CacheEntry} (he : (CacheEntries.ofFile (some bytes)).get? name = some e) :
    (∃ i ∈ b.found.chosen, i.descriptor.same name = true ∧
      ∃ record, i.IsRecordedBy env.catalog record ∧ e.fingerprint = record.fingerprint) ∨
    (∀ i ∈ b.found.chosen, i.descriptor.same name = false) ∧
      ∃ bytes' old, w.disk.node? (w.disk.place o.cacheFile) = some (.file bytes') ∧
        (CacheEntries.ofFile (some bytes')).get? name = some old ∧
        e.fingerprint = old.fingerprint := by
  rcases h.merged_eq_of_file hdated hnow hbytes with hmerged | ⟨hnone, hbefore⟩
  · have hprint : (Completed.cache env o content b).fingerprint? name = some e.fingerprint := by
      rw [Cache.fingerprint?, hmerged, he, Option.map_some]
    by_cases hchosen : ∃ i ∈ b.found.chosen, i.descriptor.same name = true
    · obtain ⟨i, hi, hsame⟩ := hchosen
      obtain ⟨record, hrecorded, hfound⟩ := h.fingerprint?_cache hdated hnow hi
      rw [Cache.fingerprint?_congr hsame, hprint] at hfound
      exact Or.inl ⟨i, hi, hsame, record, hrecorded, Option.some.inj hfound⟩
    · have hnot : ∀ i ∈ b.found.chosen, i.descriptor.same name = false := by
        intro i hi
        rw [Bool.eq_false_iff]
        exact fun hsame => hchosen ⟨i, hi, hsame⟩
      rw [h.fingerprint?_cache_of_not_chosen hdated hnow hnot] at hprint
      obtain ⟨old, hold, hsame⟩ := Option.map_eq_some_iff.mp hprint
      cases content with
      | none => cases hold
      | some bytes' =>
        have hbefore := Disk.node?_of_contentOf (h.selected.loaded bytes' rfl)
        exact Or.inr ⟨hnot, bytes', old, hbefore, hold, hsame.symm⟩
  · exact Or.inr ⟨by simp [hnone], bytes, e, hbefore, he, rfl⟩

theorem Completed.isFaithful_of_not_chosen
    (h : Completed env o w content b d) (htimeline : Catalog.IsTimeline (env.catalog :: cs))
    (hnot : ∀ i ∈ b.found.chosen, i.descriptor.same name = false) {f : Fingerprint}
    (hf : f.IsFaithful cs o w.disk name) :
    f.IsFaithful (env.catalog :: cs) o d name := by
  obtain ⟨c, hc, q, hq, hsame, hmodified, hdependencies, hfile, hcontent⟩ := hf
  have hc' := List.mem_cons_of_mem env.catalog hc
  refine ⟨c, hc', q, hq, hsame, hmodified, hdependencies, hfile,
    h.contentOf_of_not_analyzed htimeline hc' hq ?_ hcontent⟩
  intro j hj
  rw [Bool.eq_false_iff]
  intro hjq
  have hjname := hnot j (mem_decided_analyze_iff.mp hj).1
  rw [Descriptor.same_congr_left hjq, hsame] at hjname
  exact Bool.false_ne_true hjname.symm

theorem Completed.hasFaithfulCache
    (h : Completed env o w content b d) (htimeline : Catalog.IsTimeline (env.catalog :: cs))
    (hnow : env.now.IsInstant) (hcache : w.disk.HasFaithfulCache cs o) :
    d.HasFaithfulCache (env.catalog :: cs) o := by
  have hdated := htimeline.dated env.catalog List.mem_cons_self
  intro bytes hbytes name e he
  rcases h.cached_cases hdated hnow hbytes he with
    ⟨i, hi, hsame, record, hrecorded, hprint⟩ | ⟨hnot, bytes', old, hbefore, hold, hprint⟩
  · obtain ⟨p, hp, hdescribes⟩ := h.selected.exists_row hi
    obtain ⟨hfile, hcontent⟩ := h.contentOf_of_chosen htimeline hcache hi hp hdescribes
    have hdate : record.lastModified = p.modified :=
      Option.some.inj (hrecorded.lastModified.symm.trans hdescribes.lastModified)
    rw [hprint]
    exact ⟨env.catalog, List.mem_cons_self, p, hp, hdescribes.descriptor ▸ hsame, hdate,
      hrecorded.dependencies.trans hdescribes.dependencies, hrecorded.snapshotFile.trans hfile,
      hcontent⟩
  · rw [hprint]
    exact h.isFaithful_of_not_chosen htimeline hnot (hcache bytes' hbefore name old hold)

/-! ## Runs of builds -/

/-- Builds that succeed and do not lose their caches, one after the other on one disk.  The catalogs
are those of the builds, the latest first. -/
inductive Runs (root : String) (start : Disk) : List Catalog → Disk → Prop where
  | none : Runs root start [] start
  | next {env : Conditions} {o : Options} {w w' : World} {b : CompletedBuild} {cs : List Catalog}
      (before : Runs root start cs w.disk) (project : o.projectRoot = root)
      (now : env.now.IsInstant) (build : run (complete env o) w = (.ok b, w'))
      (flushed : b.flushed ≠ .failed) :
      Runs root start (env.catalog :: cs) w'.disk

theorem Runs.hasFaithfulCache
    {root : String} {start : Disk} (hruns : Runs root start cs d)
    (htimeline : Catalog.IsTimeline cs) (hroot : o.projectRoot = root)
    (hfresh : start.IsFresh o) :
    d.HasFaithfulCache cs o := by
  induction hruns with
  | none =>
    intro bytes hbytes
    exact absurd hbytes (hfresh bytes)
  | next _ project now build flushed ih =>
    have hproject := project.trans hroot.symm
    obtain ⟨content, hcompleted⟩ := complete_eq_ok build flushed
    have hbefore := (ih htimeline.tail).congr hproject.symm
    exact (hcompleted.hasFaithfulCache htimeline now hbefore).congr hproject

theorem Completed.contentOf_of_noCache
    (h : Completed env o w content b d) (hnamed : env.catalog.NamesFiles)
    (hnoCache : o.noCache = true) (hi : i ∈ b.found.chosen) {p : ProcedureRow}
    (hp : p ∈ env.catalog.rows) (hdistinct : env.catalog.HasDistinctProcedures)
    (hsame : i.descriptor.same p.descriptor = true) :
    d.contentOf (o.snapshotPath p.descriptor) = .ok (env.catalog.snapshotBytes p) := by
  obtain ⟨q, hq, hdescribes⟩ := h.selected.exists_row hi
  rw [hdescribes.descriptor] at hsame
  obtain rfl := hdistinct.eq_of_same hq hp hsame
  refine h.contentOf_of_analyzed hnamed hi hdescribes ?_
  rcases hdescribes.chosen with hanalyze | hreuse
  · exact hanalyze
  · obtain ⟨e, hlookup, -⟩ := hdescribes.reused hreuse
    simp [Cache.lookup?, hnoCache] at hlookup

/-- After any run of builds on a project that had no cache, every procedure that the last one
selects has the snapshot that any build of the same catalog without the cache leaves. -/
theorem incremental_eq_clean
    {start : Disk} {past : List Catalog} (hpast : Runs o.projectRoot start past w.disk)
    (hfresh : start.IsFresh o) (htimeline : Catalog.IsTimeline (env.catalog :: past))
    (hlast : run (complete env o) w = (.ok b, w')) (hflushed : b.flushed ≠ .failed)
    (hi : i ∈ b.found.chosen) :
    ∃ bytes, w'.disk.contentOf (o.snapshotPath i.descriptor) = .ok bytes ∧
      ∀ (env' : Conditions) (o' : Options) (v v' : World) (b' : CompletedBuild),
        env'.catalog = env.catalog → o'.noCache = true →
        run (complete env' o') v = (.ok b', v') → b'.flushed ≠ .failed →
        ∀ j ∈ b'.found.chosen, j.descriptor.same i.descriptor = true →
          v'.disk.contentOf (o'.snapshotPath i.descriptor) = .ok bytes := by
  obtain ⟨content, hcompleted⟩ := complete_eq_ok hlast hflushed
  obtain ⟨p, hp, hdescribes⟩ := hcompleted.selected.exists_row hi
  obtain ⟨-, hcontent⟩ := hcompleted.contentOf_of_chosen htimeline
    (hpast.hasFaithfulCache htimeline.tail rfl hfresh) hi hp hdescribes
  rw [hdescribes.descriptor]
  refine ⟨env.catalog.snapshotBytes p, hcontent, ?_⟩
  intro env' o' v v' b' hcatalog hnoCache hclean hflushed' j hj hsame
  obtain ⟨content', hcompleted'⟩ := complete_eq_ok hclean hflushed'
  have hnamed := htimeline.namesFiles env.catalog List.mem_cons_self
  have hdistinct := htimeline.distinct env.catalog List.mem_cons_self
  rw [← hcatalog] at hp hnamed hdistinct ⊢
  exact hcompleted'.contentOf_of_noCache hnamed hnoCache hj hp hdistinct hsame

/-- The sample is built, `audit.Log` is changed, and the sample is built again.  `sales.Ship` then
has the snapshot that it has in a build from scratch. -/
theorem incremental_eq_clean_sample :
    ∃ b w v b' v' bytes, Runs "/p" .sample [.sample] w.disk ∧
      run (complete (.calm .sampleLater ⟨9500, 0⟩) .sample) w = (.ok b, v) ∧
      (∃ i ∈ b.found.chosen, i.descriptor = ⟨"sales", "Ship"⟩) ∧
      run (complete (.calm .sampleLater ⟨9500, 0⟩)
        { projectRoot := "/p", noCache := true }) .sample =
        (.ok b', v') ∧
      v.disk.contentOf (Options.sample.snapshotPath ⟨"sales", "Ship"⟩) = .ok bytes ∧
      v'.disk.contentOf (Options.sample.snapshotPath ⟨"sales", "Ship"⟩) = .ok bytes := by
  have hnames : Catalog.sampleLater.rows.map (·.descriptor) =
      Catalog.sample.rows.map (·.descriptor) := by decide +kernel
  have hrow : ⟨"sales", "Ship", 1, ⟨1000, 0⟩⟩ ∈ Catalog.sampleLater.rows := by decide +kernel
  obtain ⟨_, w, hfirst, hflushed, hw, hroom⟩ :=
    exists_complete_sample rfl ⟨5000, 0⟩ rfl (w := .sample) rfl (.refl _)
  obtain ⟨b, v, hlast, hflushed', -, -⟩ :=
    exists_complete_sample hnames ⟨9500, 0⟩ (o := .sample) rfl hw hroom
  obtain ⟨b', v', hclean, hflushed'', -, -⟩ := exists_complete_sample hnames ⟨9500, 0⟩
    (o := { projectRoot := "/p", noCache := true }) rfl (w := .sample) rfl (.refl _)
  obtain ⟨content, hcompleted⟩ := complete_eq_ok hlast hflushed'
  obtain ⟨content', hcompleted'⟩ := complete_eq_ok hclean hflushed''
  obtain ⟨i, hi, hdescribes⟩ := hcompleted.selected.exists_item
    Catalog.hasDistinctProcedures_sampleLater (Catalog.selects_sample hnames hrow)
  obtain ⟨j, hj, hdescribes'⟩ := hcompleted'.selected.exists_item
    Catalog.hasDistinctProcedures_sampleLater (Catalog.selects_sample hnames hrow)
  have hpast : Runs Options.sample.projectRoot .sample [.sample] w.disk :=
    .next .none rfl (by decide +kernel) hfirst hflushed
  have hfresh : Disk.sample.IsFresh .sample := by
    intro bytes hbytes
    have hnone :
        (Disk.sample.node? (Disk.sample.place Options.sample.cacheFile)).isNone = true := by
      decide +kernel
    rw [hbytes] at hnone
    cases hnone
  obtain ⟨bytes, hcontent, hsame⟩ :=
    incremental_eq_clean hpast hfresh Catalog.isTimeline_sample hlast hflushed' hi
  have hclean' := hsame _ _ _ _ _ rfl rfl hclean hflushed'' j hj (by
    rw [hdescribes.descriptor, hdescribes'.descriptor]
    exact Descriptor.same_refl _)
  rw [hdescribes.descriptor] at hcontent hclean'
  exact ⟨b, w, v, b', v', bytes, hpast, hlast, ⟨i, hi, hdescribes.descriptor⟩, hclean, hcontent,
    hclean'⟩

end Build

end SqlSnapshot
