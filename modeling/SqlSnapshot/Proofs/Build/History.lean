import SqlSnapshot.Proofs.Build.Incremental
import SqlSnapshot.Proofs.Build.Interrupted
import SqlSnapshot.Proofs.Build.Rebuild
import SqlSnapshot.Proofs.Digest

/-!
# Reuse after builds that did not finish

The snapshots of a build are on the disk before its cache file is.  A build that ends in between, by
an error, by being cancelled, or because its cache file cannot be written, leaves snapshots of which
the cache does not know.  A later build takes the digest in the cache for that of the file, and is
right as long as no build changed the file since one recorded it.
-/

namespace SqlSnapshot

/-- A build with the world that it found. -/
structure PastBuild where
  env : Conditions
  options : Options
  world : World

namespace PastBuild

variable (b : PastBuild)

/-- The disk that the build leaves, however it ends. -/
def after : Disk :=
  (Build.run (Build.snapshots b.env b.options) b.world).2.disk

/-- The build comes to its end with this result, and its cache is not lost. -/
def Records (result : CompletedBuild) : Prop :=
  (Build.run (Build.untilFlushed b.env b.options) b.world).1 = .ok result ∧ result.flushed ≠ .failed

/-- The build writes the file or finds it as it would write it, and records that. -/
def Stores (l : Location) : Prop :=
  ∃ result, b.Records result ∧ ∃ i ∈ result.found.decided .analyze,
    l = b.world.disk.place (b.options.snapshotPath i.descriptor)

end PastBuild

/-- No build changed the file since one stored it.  The latest build is the first. -/
def KeptSinceStored (l : Location) : List PastBuild → Prop
  | [] => True
  | b :: past => b.Stores l ∨ b.world.disk.KeepsFile l b.after ∧ KeptSinceStored l past

/-- Builds of one project one after the other, each ending in any way.  The latest is the first. -/
inductive History (root : String) (start : Disk) : List PastBuild → Disk → Prop where
  | none : History root start [] start
  | next {b : PastBuild} {past : List PastBuild} (before : History root start past b.world.disk)
      (project : b.options.projectRoot = root) (now : b.env.now.IsInstant) :
      History root start (b :: past) b.after

/-- Different procedures of the catalogs have files of different names. -/
def Catalog.NameFilesApart (cs : List Catalog) : Prop :=
  ∀ c ∈ cs, ∀ c' ∈ cs, ∀ p ∈ c.rows, ∀ q ∈ c'.rows,
    Snapshot.fileName p.descriptor = Snapshot.fileName q.descriptor →
      p.descriptor.same q.descriptor = true

theorem Catalog.NameFilesApart.tail
    {c : Catalog} {cs : List Catalog} (h : NameFilesApart (c :: cs)) :
    NameFilesApart cs :=
  fun a ha a' ha' => h a (List.mem_cons_of_mem c ha) a' (List.mem_cons_of_mem c ha')

/-- The entry names the snapshot of a procedure of a past catalog, and has its digest if the file
was kept since it was stored. -/
def CacheEntry.IsHonest (e : CacheEntry) (past : List PastBuild) (o : Options) (d : Disk)
    (name : Descriptor) : Prop :=
  ∃ c ∈ past.map (·.env.catalog), ∃ p ∈ c.rows, p.descriptor.same name = true ∧
    e.snapshotFile = some (Snapshot.fileName p.descriptor) ∧
    (KeptSinceStored (d.place (o.snapshotPath p.descriptor)) past →
      ∃ content, d.node? (d.place (o.snapshotPath p.descriptor)) = some (.file content) ∧
        e.snapshotHash = some (Sha256.hex content))

def Disk.HasHonestCache (d : Disk) (past : List PastBuild) (o : Options) : Prop :=
  ∀ bytes, d.node? (d.place o.cacheFile) = some (.file bytes) →
    ∀ name e, (CacheEntries.ofFile (some bytes)).get? name = some e → e.IsHonest past o d name

theorem Disk.HasHonestCache.congr
    {d : Disk} {past : List PastBuild} {o o' : Options} (h : d.HasHonestCache past o)
    (hroot : o.projectRoot = o'.projectRoot) :
    d.HasHonestCache past o' := by
  intro bytes hbytes name e he
  rw [← Options.cacheFile_congr hroot] at hbytes
  obtain ⟨c, hc, p, hp, hsame, hfile, hkept⟩ := h bytes hbytes name e he
  rw [Options.snapshotPath_congr hroot] at hkept
  exact ⟨c, hc, p, hp, hsame, hfile, hkept⟩

namespace PastBuild

open Build

variable {b : PastBuild} {past : List PastBuild} {result : CompletedBuild} {name : Descriptor}

/-! ## What a build leaves -/

theorem after_eq
    (b : PastBuild) :
    b.after = (run (untilFlushed b.env b.options) b.world).2.disk := by
  have hkeeps : ∀ result : CompletedBuild, Leaves World.KeepsDisk (do
      let fingerprint ← Build.fingerprint b.env b.options.schemaDirectory Snapshot.fingerprint
      return { result with fingerprint }) := by
    intro result
    refine leaves_bind (leaves_fingerprint (fun _ _ hdisk => hdisk) _ _) ?_
    exact fun _ _ _ _ _ => rfl
  rw [after, snapshots, disk_run_bind fun _ _ => rfl, complete_eq, disk_run_bind hkeeps]

theorem Records.completed
    (h : b.Records result) :
    ∃ content, Completed b.env b.options b.world content
      { result with fingerprint := b.after.fingerprint b.options.schemaDirectory } b.after := by
  obtain ⟨houtcome, hflushed⟩ := h
  rw [after_eq]
  exact untilFlushed_eq_ok (Prod.ext houtcome rfl) hflushed

theorem writesSnapshots_of_not_records
    (h : ∀ result, ¬ b.Records result) :
    b.world.WritesSnapshots b.options (run (untilFlushed b.env b.options) b.world).2 := by
  refine writesSnapshots_untilFlushed rfl ?_
  intro result houtcome
  by_contra hflushed
  exact h result ⟨houtcome, hflushed⟩

theorem here_after (b : PastBuild) : b.after.here = b.world.disk.here := by
  by_cases hrecords : ∃ result, b.Records result
  · obtain ⟨result, hrecords⟩ := hrecords
    obtain ⟨content, hcompleted⟩ := hrecords.completed
    exact hcompleted.grows.here
  · rw [after_eq]
    exact (writesSnapshots_of_not_records (not_exists.mp hrecords)).here

theorem after_of_complete
    {env : Conditions} {o : Options} {w w' : World}
    (h : run (complete env o) w = (.ok result, w')) :
    after ⟨env, o, w⟩ = w'.disk := by
  rw [after, snapshots, run_bind_of_eq_ok h]
  rfl

theorem records_of_complete
    {env : Conditions} {o : Options} {w w' : World}
    (h : run (complete env o) w = (.ok result, w')) (hflushed : result.flushed ≠ .failed) :
    ∃ result, Records ⟨env, o, w⟩ result := by
  rw [complete_eq] at h
  obtain ⟨result', w₁, huntil, h⟩ := run_bind_eq_ok.mp h
  obtain ⟨fingerprint, w₂, -, h⟩ := run_bind_eq_ok.mp h
  cases h
  exact ⟨result', by rw [huntil], hflushed⟩

theorem Records.unique
    {result' : CompletedBuild} (h : b.Records result) (h' : b.Records result') :
    result = result' :=
  Except.ok.inj (h.1.symm.trans h'.1)

theorem Records.keepsFile
    (h : b.Records result) {o : Options}
    (hroot : o.projectRoot = b.options.projectRoot) {p : Descriptor}
    (hnot : ¬ b.Stores (b.world.disk.place (o.snapshotPath p))) :
    b.world.disk.KeepsFile (b.world.disk.place (o.snapshotPath p)) b.after := by
  obtain ⟨content, hcompleted⟩ := h.completed
  refine hcompleted.grows.keepsFile ?_
  rintro (hplace | ⟨i, hi, hplace⟩)
  · rw [← Options.cacheFile_congr hroot] at hplace
    exact o.place_cacheFile_ne b.world.disk p hplace.symm
  · exact hnot ⟨result, h, i, hi, hplace⟩

end PastBuild

/-- A snapshot is kept since it was stored if every build records or keeps it. -/
theorem History.keptSinceStored
    {root : String} {start d : Disk} {past : List PastBuild} {o : Options}
    (hpast : History root start past d) (hroot : o.projectRoot = root) {p : Descriptor}
    (hall : ∀ b ∈ past, (∃ result, b.Records result) ∨
      b.world.disk.KeepsFile (b.world.disk.place (o.snapshotPath p)) b.after) :
    KeptSinceStored (d.place (o.snapshotPath p)) past := by
  induction hpast with
  | none => trivial
  | @next b past _ project _ ih =>
    have hbefore := ih fun c hc => hall c (List.mem_cons_of_mem b hc)
    rw [Disk.place_congr b.here_after]
    by_cases hstores : b.Stores (b.world.disk.place (o.snapshotPath p))
    · exact Or.inl hstores
    · refine Or.inr ⟨?_, hbefore⟩
      rcases hall b List.mem_cons_self with ⟨result, hrecords⟩ | hkeeps
      · exact hrecords.keepsFile (hroot.trans project.symm) hstores
      · exact hkeeps

/-! ## Honest entries -/

namespace Build

variable {env : Conditions} {o : Options} {w w' : World} {content : Option ByteArray}
  {b : PastBuild} {past : List PastBuild} {result : CompletedBuild} {d : Disk} {i : CollectionItem}
  {name : Descriptor}

/-- The file and the digest of an entry are those of a snapshot that the build wrote, or those of an
entry that was there before. -/
theorem Completed.cached_file_cases
    (h : Completed env o w content result d) (hdated : env.catalog.IsDated)
    (hnow : env.now.IsInstant)
    {bytes : ByteArray} (hbytes : d.node? (d.place o.cacheFile) = some (.file bytes))
    {e : CacheEntry} (he : (CacheEntries.ofFile (some bytes)).get? name = some e) :
    (∃ i ∈ result.found.decided .analyze, i.descriptor.same name = true ∧
      e.snapshotFile = some (Snapshot.fileName i.descriptor) ∧
      e.snapshotHash =
        some (Sha256.hex (Snapshot.ofAnalysis (i.analysis env.catalog)).canonicalBytes)) ∨
    (∀ i ∈ result.found.decided .analyze, i.descriptor.same name = false) ∧
      ∃ bytes' old, w.disk.node? (w.disk.place o.cacheFile) = some (.file bytes') ∧
        (CacheEntries.ofFile (some bytes')).get? name = some old ∧
        e.snapshotFile = old.snapshotFile ∧ e.snapshotHash = old.snapshotHash := by
  rcases h.cached_cases hdated hnow hbytes he with
    ⟨i, hi, hsame, record, hrecorded, hprint⟩ | ⟨hnot, bytes', old, hbefore, hold, hprint⟩
  · have hfile : e.snapshotFile = record.snapshotFile := congrArg Fingerprint.snapshotFile hprint
    have hhash : e.snapshotHash = record.snapshotHash := congrArg Fingerprint.snapshotHash hprint
    rw [hrecorded.snapshotFile] at hfile
    rw [hrecorded.snapshotHash] at hhash
    obtain ⟨p, -, hdescribes⟩ := h.selected.exists_row hi
    rcases hdescribes.chosen with hanalyze | hreuse
    · rw [CollectionItem.recordedFile_of_analyze hanalyze] at hfile
      rw [CollectionItem.recordedHash_of_analyze hanalyze] at hhash
      exact Or.inl ⟨i, mem_decided_analyze_iff.mpr ⟨hi, hanalyze⟩, hsame, hfile, hhash⟩
    -- What is reused is recorded as the entry had it that was found before.
    · obtain ⟨bytes', old, hbefore, hold, hcachedFile, hcachedHash, -⟩ :=
        h.selected.exists_entry_of_reuse hreuse hdescribes
      rw [CollectionItem.recordedFile_of_reuse hreuse, hcachedFile] at hfile
      rw [CollectionItem.recordedHash_of_reuse hreuse, hcachedHash] at hhash
      rw [← hdescribes.descriptor, CacheEntries.get?_congr hsame] at hold
      refine Or.inr ⟨?_, bytes', old, hbefore, hold, hfile, hhash⟩
      intro j hj
      obtain ⟨hchosen, hanalyze⟩ := mem_decided_analyze_iff.mp hj
      rw [Bool.eq_false_iff]
      intro hjname
      rw [← Descriptor.same_congr_right hsame] at hjname
      rw [h.selected.eq_of_same hchosen hi hjname, hreuse] at hanalyze
      cases hanalyze
  · exact Or.inr ⟨fun i hi => hnot i (mem_decided_analyze_iff.mp hi).1, bytes', old, hbefore, hold,
      congrArg Fingerprint.snapshotFile hprint, congrArg Fingerprint.snapshotHash hprint⟩

theorem honest_after
    {e : CacheEntry} (h : e.IsHonest past o b.world.disk name)
    (hnot : ∀ c ∈ past.map (·.env.catalog), ∀ p ∈ c.rows, p.descriptor.same name = true →
      ¬ b.Stores (b.world.disk.place (o.snapshotPath p.descriptor))) :
    e.IsHonest (b :: past) o b.after name := by
  obtain ⟨c, hc, p, hp, hsame, hfile, hhash⟩ := h
  refine ⟨c, List.mem_cons_of_mem _ hc, p, hp, hsame, hfile, ?_⟩
  rw [Disk.place_congr b.here_after]
  rintro (hstores | ⟨hkeeps, hkept⟩)
  · exact absurd hstores (hnot c hc p hp hsame)
  · obtain ⟨content, hnode, hdigest⟩ := hhash hkept
    exact ⟨content, (hkeeps content).mpr hnode, hdigest⟩

theorem hasHonestCache_of_records
    (hrecords : b.Records result) (hdated : b.env.catalog.IsDated) (hnow : b.env.now.IsInstant)
    (hnamed : Catalog.NameFilesApart ((b :: past).map (·.env.catalog)))
    (hcache : b.world.disk.HasHonestCache past b.options) :
    b.after.HasHonestCache (b :: past) b.options := by
  obtain ⟨content, hcompleted⟩ := hrecords.completed
  have hcatalog : b.env.catalog ∈ (b :: past).map (·.env.catalog) := List.mem_cons_self
  intro bytes hbytes name e he
  rcases hcompleted.cached_file_cases hdated hnow hbytes he with
    ⟨i, hi, hsame, hfile, hhash⟩ | ⟨hnot, bytes', old, hbefore, hold, hfile, hhash⟩
  · obtain ⟨hchosen, hanalyze⟩ := mem_decided_analyze_iff.mp hi
    obtain ⟨p, hp, hdescribes⟩ := hcompleted.selected.exists_row hchosen
    have hcontent := hcompleted.contentOf_of_analyzed
      (fun p hp q hq => hnamed _ hcatalog _ hcatalog p hp q hq) hchosen hdescribes hanalyze
    rw [hdescribes.descriptor] at hsame hfile
    rw [hdescribes.snapshotBytes_eq] at hhash
    exact ⟨_, hcatalog, p, hp, hsame, hfile, fun _ => ⟨_, Disk.node?_of_contentOf hcontent, hhash⟩⟩
  · have hhonest : e.IsHonest past b.options b.world.disk name := by
      rw [CacheEntry.IsHonest, hfile, hhash]
      exact hcache bytes' hbefore name old hold
    refine honest_after hhonest ?_
    -- A file that the build stores is that of a procedure that it analyzed, and only that one's.
    rintro c hc q hq hsame ⟨result', hrecords', i, hi, hplace⟩
    obtain rfl := hrecords.unique hrecords'
    obtain ⟨p, hp, hdescribes⟩ :=
      hcompleted.selected.exists_row (mem_decided_analyze_iff.mp hi).1
    rw [hdescribes.descriptor] at hplace
    have hpq := hnamed _ hcatalog c (List.mem_cons_of_mem _ hc) p hp q hq
      (b.options.fileName_eq_of_place b.world.disk hplace.symm)
    have hiname := hnot i hi
    rw [hdescribes.descriptor, Descriptor.same_congr_left hpq, hsame] at hiname
    exact Bool.false_ne_true hiname.symm

theorem hasHonestCache_of_not_records
    (hlost : ∀ result, ¬ b.Records result) (hcache : b.world.disk.HasHonestCache past b.options) :
    b.after.HasHonestCache (b :: past) b.options := by
  have hwrites := PastBuild.writesSnapshots_of_not_records hlost
  intro bytes hbytes name e he
  rw [Disk.place_congr b.here_after, b.after_eq, hwrites.keepsFile_cacheFile bytes] at hbytes
  refine honest_after (hcache bytes hbytes name e he) ?_
  rintro c - p - - ⟨result, hrecords, -⟩
  exact hlost result hrecords

end Build

theorem History.hasHonestCache
    {root : String} {start d : Disk} {past : List PastBuild} {o : Options}
    (hpast : History root start past d) (hdated : ∀ b ∈ past, b.env.catalog.IsDated)
    (hnamed : Catalog.NameFilesApart (past.map (·.env.catalog))) (hroot : o.projectRoot = root)
    (hfresh : start.IsFresh o) :
    d.HasHonestCache past o := by
  induction hpast with
  | none =>
    intro bytes hbytes
    exact absurd hbytes (hfresh bytes)
  | @next b past _ project now ih =>
    have hproject := project.trans hroot.symm
    have hbefore := (ih (fun c hc => hdated c (List.mem_cons_of_mem b hc)) hnamed.tail).congr
      hproject.symm
    by_cases hrecords : ∃ result, b.Records result
    · obtain ⟨result, hrecords⟩ := hrecords
      exact (Build.hasHonestCache_of_records hrecords (hdated b List.mem_cons_self) now hnamed
        hbefore).congr hproject
    · exact (Build.hasHonestCache_of_not_records (not_exists.mp hrecords) hbefore).congr hproject

namespace Build

variable {env : Conditions} {o : Options} {w w' : World} {i : CollectionItem}

/-- Whatever builds came before, and however they ended: a build reuses a procedure with the digest
of its file, unless a build changed the file since one stored it. -/
theorem reuse_trusts_kept_files
    {start : Disk} {past : List PastBuild} (hpast : History o.projectRoot start past w.disk)
    (hfresh : start.IsFresh o) (hdated : ∀ b ∈ past, b.env.catalog.IsDated)
    (hnamed : Catalog.NameFilesApart (past.map (·.env.catalog))) {found : Collection}
    (hselect : run (selectPhase env o) w = (.ok found, w')) (hi : i ∈ found.decided .reuse)
    (hkept : ∀ d, i.cachedFile = some (Snapshot.fileName d) →
      KeptSinceStored (w.disk.place (o.snapshotPath d)) past) :
    ∃ file bytes, i.cachedFile = some file ∧
      w'.disk.contentOf (Path.join o.schemaDirectory file) = .ok bytes ∧
      i.cachedHash = some (Sha256.hex bytes) := by
  obtain ⟨content, hselected, hdisk, -⟩ := selectPhase_eq_ok hselect
  obtain ⟨hchosen, hreuse⟩ := mem_decided_reuse_iff.mp hi
  obtain ⟨p, -, hdescribes⟩ := hselected.exists_row hchosen
  obtain ⟨bytes, e, hbytes, hentry, hcachedFile, hcachedHash, -, file, hfile, hthere⟩ :=
    hselected.exists_entry_of_reuse hreuse hdescribes
  obtain ⟨c, -, q, -, -, hsnapshot, hhash⟩ :=
    hpast.hasHonestCache hdated hnamed rfl hfresh bytes hbytes p.descriptor e hentry
  rw [hfile, Option.some.injEq] at hsnapshot
  subst hsnapshot
  rw [hfile] at hcachedFile
  obtain ⟨read, hnode, hdigest⟩ := hhash (hkept _ hcachedFile)
  obtain ⟨there, hcontent⟩ := Disk.isFile_iff.mp hthere
  have hsame : w.disk.node? (w.disk.place (o.snapshotPath q.descriptor)) = some (.file there) :=
    Disk.node?_of_contentOf hcontent
  rw [hnode] at hsame
  cases hsame
  exact ⟨_, _, hcachedFile, hdisk ▸ hcontent, hcachedHash.trans hdigest⟩

theorem isFresh_sample : Disk.sample.IsFresh .sample := by
  intro bytes hbytes
  have hnone : (Disk.sample.node? (Disk.sample.place Options.sample.cacheFile)).isNone = true := by
    decide +kernel
  rw [hbytes] at hnone
  cases hnone

/-- The sample is built, and the next build reuses `audit.Log`. -/
theorem reuse_trusts_kept_files_sample :
    ∃ past w found w' i, History "/p" .sample past w.disk ∧
      run (selectPhase (.calm .sample ⟨6000, 0⟩) .sample) w = (.ok found, w') ∧
      i ∈ found.decided .reuse ∧ i.descriptor = ⟨"audit", "Log"⟩ ∧
      ∃ file bytes, i.cachedFile = some file ∧
        w'.disk.contentOf (Path.join Options.sample.schemaDirectory file) = .ok bytes ∧
        i.cachedHash = some (Sha256.hex bytes) := by
  have hrow : ⟨"audit", "Log", 3, ⟨3000, 0⟩⟩ ∈ Catalog.sample.rows := by decide +kernel
  obtain ⟨b, w, hfirst, hflushed, hw, -⟩ :=
    exists_complete_sample rfl ⟨5000, 0⟩ rfl (w := .sample) rfl (.refl _)
  obtain ⟨content, hcompleted⟩ := complete_eq_ok hfirst hflushed
  obtain ⟨found, w', hselect, -⟩ :=
    succeeds_selectPhase (Conditions.calm_calm .sample ⟨6000, 0⟩) .sample w hw
  obtain ⟨content', hselected, -⟩ := selectPhase_eq_ok hselect
  obtain ⟨hreuses, -⟩ := hselected.reuses_of_isUpToDate (fun _ => rfl) rfl
    (hcompleted.isUpToDate Catalog.isDated_sample (by decide +kernel))
  obtain ⟨i, hi, hdescribes⟩ := hselected.exists_item Catalog.hasDistinctProcedures_sample
    (Catalog.selects_sample rfl hrow)
  have hreuse : i ∈ found.decided .reuse := mem_decided_reuse_iff.mpr ⟨hi, hreuses i hi⟩
  have hpast : History "/p" .sample [⟨.calm .sample ⟨5000, 0⟩, .sample, .sample⟩] w.disk := by
    rw [← PastBuild.after_of_complete hfirst]
    exact .next .none rfl (by decide +kernel)
  have hnamed : Catalog.NameFilesApart [.sample] := by
    unfold Catalog.NameFilesApart
    decide +kernel
  refine ⟨_, w, found, w', i, hpast, hselect, hreuse, hdescribes.descriptor, ?_⟩
  refine reuse_trusts_kept_files hpast isFresh_sample ?_ hnamed hselect hreuse ?_
  · intro b hb
    rw [List.mem_singleton.mp hb]
    exact Catalog.isDated_sample
  · intro d _
    refine hpast.keptSinceStored rfl ?_
    intro b hb
    rw [List.mem_singleton.mp hb]
    exact Or.inl (PastBuild.records_of_complete hfirst hflushed)

/-! ## Reuse of a file that was not recorded -/

section Unrecorded

variable {env₁ env₂ : Conditions} {w₁ w₂ : World} {content₁ content₂ : Option ByteArray}
  {b : CompletedBuild} {found : Collection} {j : CollectionItem}

theorem isUpToDate_of_writesSnapshots
    {c : Catalog} (h : c.IsUpToDate o w.disk) (hwrites : w.WritesSnapshots o w') :
    c.IsUpToDate o w'.disk := by
  intro p hp
  obtain ⟨bytes, e, hbytes, hentry, hmodified, hdependencies, hholds⟩ := h p hp
  have hcache : w'.disk.contentOf o.cacheFile = .ok bytes := by
    refine Disk.contentOf_of_grows hwrites ?_ hbytes
    rintro ⟨d, hplace⟩
    exact o.place_cacheFile_ne w.disk d hplace
  obtain ⟨hdescribes, file, hfile, hthere⟩ := hholds
  exact ⟨bytes, e, hcache, hentry, hmodified, hdependencies, hdescribes, file, hfile,
    Disk.isFile_of_grows hwrites hthere⟩

/-- What a build reuses for a procedure that was recorded before, it reuses as recorded, whatever
snapshots were written since. -/
theorem Completed.recorded_of_reuse
    (h : Completed env₁ o w content₁ b w₁.disk) (hdated : env₁.catalog.IsDated)
    (hnow : env₁.now.IsInstant) (hwrites : w₁.WritesSnapshots o w₂)
    (hselected : Selected env₂ o w₂ content₂ found) (hi : i ∈ b.found.chosen)
    (hj : j ∈ found.decided .reuse) (hname : i.descriptor = j.descriptor) :
    j.cachedFile = i.recordedFile ∧ j.cachedHash = i.recordedHash env₁.catalog ∧
      j.dependencies = i.dependencies := by
  obtain ⟨hchosen, hreuse⟩ := mem_decided_reuse_iff.mp hj
  obtain ⟨p, -, hdescribes⟩ := h.selected.exists_row hi
  obtain ⟨q, -, hdescribes'⟩ := hselected.exists_row hchosen
  obtain ⟨bytes, e, hbytes, hentry, -, hhash, hfile, hdependencies⟩ :=
    h.exists_cached hdated hnow hi
  obtain ⟨bytes', e', hbytes', hentry', hcachedFile, hcachedHash, hholds⟩ :=
    hselected.exists_entry_of_reuse hreuse hdescribes'
  rw [Disk.place_congr hwrites.here, hwrites.keepsFile_cacheFile bytes',
    Disk.node?_of_contentOf hbytes] at hbytes'
  cases hbytes'
  rw [← hdescribes'.descriptor, ← hname, hentry] at hentry'
  cases hentry'
  obtain ⟨-, hsame, -⟩ := CacheEntry.holds_iff.mp hholds
  rw [hdependencies, hdescribes.dependencies, Catalog.canonical_collectedDependencies,
    ← hdescribes.dependencies] at hsame
  exact ⟨hcachedFile.trans hfile, hcachedHash.trans hhash, hsame.symm⟩

theorem Completed.analyze_of_dependencies_ne
    (h : Completed env₁ o w content₁ b w₁.disk) (hdated : env₁.catalog.IsDated)
    (hnow : env₁.now.IsInstant) (hwrites : w₁.WritesSnapshots o w₂)
    (hselected : Selected env₂ o w₂ content₂ found) (hi : i ∈ b.found.chosen)
    (hj : j ∈ found.chosen) (hname : i.descriptor = j.descriptor)
    (hne : i.dependencies ≠ j.dependencies) :
    j.decision = .analyze := by
  obtain ⟨q, -, hdescribes⟩ := hselected.exists_row hj
  rcases hdescribes.chosen with hanalyze | hreuse
  · exact hanalyze
  · obtain ⟨-, -, hsame⟩ := h.recorded_of_reuse hdated hnow hwrites hselected hi
      (mem_decided_reuse_iff.mpr ⟨hj, hreuse⟩) hname
    exact absurd hsame.symm hne

end Unrecorded

end Build

/-- The sample while `audit.Log` is found to refer to a table. -/
def Catalog.sampleReferring : Catalog :=
  { sample with
    dependencies := ⟨"audit", "Log", "sales", "Orders", some .table⟩ :: sample.dependencies }

/-- A build of `sampleReferring` that is cancelled when its snapshots are written. -/
def Conditions.sampleCancelled : Conditions where
  catalog := .sampleReferring
  now := ⟨6000, 0⟩
  cancelsAfter := fun phase => phase == .write

theorem Conditions.prepares_sampleCancelled : sampleCancelled.Prepares :=
  ⟨fun _ _ _ => rfl, fun _ => rfl, fun _ hphase => beq_eq_false_iff_ne.mpr hphase⟩

theorem Snapshot.hex_canonicalBytes (s : Snapshot) :
    Sha256.hex s.canonicalBytes =
      Sha256.Numbers.hex
        ((s.toJson.write (.indented 0) ++ ['\n']).flatMap String.utf8EncodeChar) := by
  rw [← Sha256.Numbers.hex_ofList, String.ofList_append]
  rfl

/-- The sample is built; then `audit.Log` refers to a table, and the build that writes its new
snapshot is cancelled before it writes its cache; then the reference is gone again.  The next build
reuses `audit.Log` with the digest of its first snapshot. -/
theorem Build.reuse_after_cancelled_build :
    ∃ past w found w' i, History "/p" .sample past w.disk ∧
      Catalog.NameFilesApart (.sample :: past.map (·.env.catalog)) ∧
      run (selectPhase (.calm .sample ⟨7000, 0⟩) .sample) w = (.ok found, w') ∧
      i ∈ found.decided .reuse ∧
      ∃ file bytes, i.cachedFile = some file ∧
        w'.disk.contentOf (Path.join Options.sample.schemaDirectory file) = .ok bytes ∧
        i.cachedHash ≠ some (Sha256.hex bytes) := by
  have hrow : ⟨"audit", "Log", 3, ⟨3000, 0⟩⟩ ∈ Catalog.sample.rows := by decide +kernel
  have hnow : (Conditions.calm .sample ⟨5000, 0⟩).now.IsInstant := by decide +kernel
  have hlater : Conditions.sampleCancelled.now.IsInstant := by decide +kernel
  have hrows : Catalog.sampleReferring.rows = Catalog.sample.rows := rfl
  have hdistinct : Catalog.sampleReferring.HasDistinctProcedures :=
    ⟨by decide +kernel, by decide +kernel⟩
  have hnamed : Catalog.NameFilesApart [.sample, .sampleReferring, .sample] := by
    unfold Catalog.NameFilesApart
    decide +kernel
  have hdependencies : Catalog.sampleReferring.collectedDependencies
      ⟨"audit", "Log", 3, ⟨3000, 0⟩⟩ ≠
        Catalog.sample.collectedDependencies ⟨"audit", "Log", 3, ⟨3000, 0⟩⟩ := by decide +kernel
  have hdigests : Sha256.hex (Catalog.sample.snapshotBytes ⟨"audit", "Log", 3, ⟨3000, 0⟩⟩) ≠
      Sha256.hex (Catalog.sampleReferring.snapshotBytes ⟨"audit", "Log", 3, ⟨3000, 0⟩⟩) := by
    rw [Catalog.snapshotBytes, Catalog.snapshotBytes, Snapshot.hex_canonicalBytes,
      Snapshot.hex_canonicalBytes]
    decide +kernel
  generalize (⟨"audit", "Log", 3, ⟨3000, 0⟩⟩ : ProcedureRow) = log at *
  -- The first build analyzes the procedure and records its snapshot.
  obtain ⟨b, w₁, hfirst, hflushed, hw₁, hroom⟩ :=
    exists_complete_sample rfl ⟨5000, 0⟩ rfl (w := .sample) rfl (.refl _)
  obtain ⟨content₁, hcompleted⟩ := complete_eq_ok hfirst hflushed
  obtain ⟨i₁, hi₁, hdescribes₁⟩ := hcompleted.selected.exists_item
    Catalog.hasDistinctProcedures_sample (Catalog.selects_sample rfl hrow)
  have hanalyze₁ := hcompleted.selected.analyze_of_missing Disk.contentOf_cacheFile_sample hi₁
  -- The second build analyzes it again, writes its new snapshot and does not record it.
  have hcalls : ∀ n call, Conditions.sampleCancelled.atCall n call = none := fun _ _ => rfl
  obtain ⟨content₂, found₂, results, v, w₂, hprepared, hsecond, hwrites, -, hcontents⟩ :=
    exists_snapshots_cancelled_writing Conditions.prepares_sampleCancelled hw₁
      (hroom.there _ Disk.hasDirectory_sample)
      (fun p hp => hroom.takes _ _ (Disk.takes_snapshot_sample p (hrows ▸ hp)))
      fun content found results v hprepared => by
        obtain ⟨enriched, v', henrich, -⟩ := succeeds_enrichAll hcalls
          Conditions.prepares_sampleCancelled.diskFails results v hprepared.cancelled
        exact ⟨enriched, v', henrich, Bool.or_true _⟩
  obtain ⟨i₂, hi₂, hdescribes₂⟩ := hprepared.selected.exists_item hdistinct
    (Catalog.selects_sample (c := .sampleReferring) rfl (hrows ▸ hrow))
  have hanalyze₂ := hcompleted.analyze_of_dependencies_ne Catalog.isDated_sample hnow
    (World.writesSnapshots_of_eq rfl) hprepared.selected hi₁ hi₂
    (hdescribes₁.descriptor.trans hdescribes₂.descriptor.symm) <| by
      rw [hdescribes₁.dependencies, hdescribes₂.dependencies]
      exact hdependencies.symm
  obtain ⟨a, ha, hname, hsame⟩ :=
    hprepared.exists_result (mem_decided_analyze_iff.mpr ⟨hi₂, hanalyze₂⟩)
  have hcontent := hcontents (hprepared.pairwise_results (hprepared.selected.pairwise_fileName
    fun p hp q hq => hnamed .sampleReferring (by simp) .sampleReferring (by simp) p hp q hq)) a ha
  rw [hname, hsame, hdescribes₂.snapshotBytes_eq, hdescribes₂.descriptor] at hcontent
  -- The third build finds the procedure as the first one recorded it.
  obtain ⟨found, w', hselect, -⟩ := succeeds_selectPhase
    (Conditions.calm_calm .sample ⟨7000, 0⟩) .sample { World.sample with disk := w₂.disk } rfl
  obtain ⟨content, hselected, hdisk, -⟩ := selectPhase_eq_ok hselect
  have hchanged : w₁.WritesSnapshots .sample { World.sample with disk := w₂.disk } := hwrites
  obtain ⟨hreuses, -⟩ := hselected.reuses_of_isUpToDate (fun _ => rfl) rfl
    (isUpToDate_of_writesSnapshots (hcompleted.isUpToDate Catalog.isDated_sample hnow) hchanged)
  obtain ⟨i, hi, hdescribes⟩ := hselected.exists_item Catalog.hasDistinctProcedures_sample
    (Catalog.selects_sample rfl hrow)
  have hreuse := mem_decided_reuse_iff.mpr ⟨hi, hreuses i hi⟩
  obtain ⟨hfile, hhash, -⟩ := hcompleted.recorded_of_reuse Catalog.isDated_sample hnow hchanged
    hselected hi₁ hreuse (hdescribes₁.descriptor.trans hdescribes.descriptor.symm)
  rw [CollectionItem.recordedFile_of_analyze hanalyze₁, hdescribes₁.descriptor] at hfile
  rw [CollectionItem.recordedHash_of_analyze hanalyze₁, hdescribes₁.snapshotBytes_eq] at hhash
  have hpast : History "/p" .sample
      [⟨.sampleCancelled, .sample, w₁⟩, ⟨.calm .sample ⟨5000, 0⟩, .sample, .sample⟩] w₂.disk := by
    have hafter : PastBuild.after ⟨.sampleCancelled, .sample, w₁⟩ = w₂.disk := by
      rw [PastBuild.after, hsecond]
    rw [← hafter]
    refine .next ?_ rfl hlater
    rw [← PastBuild.after_of_complete hfirst]
    exact .next .none rfl hnow
  refine ⟨_, { World.sample with disk := w₂.disk }, found, w', i, hpast, hnamed, hselect, hreuse,
    Snapshot.fileName log.descriptor, _, hfile, hdisk ▸ hcontent, ?_⟩
  rw [hhash]
  exact fun hsame => hdigests (Option.some.inj hsame)

end SqlSnapshot
