import SqlSnapshot.Proofs.Build.Recorded
import SqlSnapshot.Proofs.Build.Success

/-!
# Which procedures are analyzed again

After a build whose cache is not lost, the next build that uses the cache reuses exactly those
procedures that have not changed: neither their modify dates nor their dependencies, and with the
snapshots that were recorded for them.
-/

namespace SqlSnapshot

/-- The procedure is not younger than at the first item, it has the dependencies that it had there,
and the snapshot recorded for it is still there. -/
def CollectionItem.StillHolds (first second : CollectionItem) (p₁ p₂ : ProcedureRow) (o : Options)
    (d : Disk) : Prop :=
  p₁.modified.before p₂.modified = false ∧ first.dependencies = second.dependencies ∧
    ∃ file, first.recordedFile = some file ∧ d.isFile (Path.join o.schemaDirectory file) = true

namespace Build

variable {env env₁ env₂ : Conditions} {o o₁ o₂ : Options} {w w₁ w₂ w₁' w₂' : World}
  {b : CompletedBuild} {found : Collection} {i i₁ i₂ : CollectionItem} {p p₁ p₂ : ProcedureRow}
  {content : Option ByteArray} {d : Disk}

theorem Selected.describes_of_same
    (h : Selected env o w content found) (hdistinct : env.catalog.HasDistinctProcedures)
    (hi : i ∈ found.chosen) (hp : p ∈ env.catalog.rows)
    (hsame : p.descriptor.same i.descriptor = true) :
    i.Describes env o ((Cache.load o content).lookup? o p.descriptor) w.disk p := by
  obtain ⟨q, hq, hdescribes⟩ := h.exists_row hi
  rw [hdescribes.descriptor] at hsame
  obtain rfl := hdistinct.eq_of_same hp hq hsame
  exact hdescribes

theorem Completed.exists_entry_holds_iff
    (h : Completed env o w content b d) (hdated : env.catalog.IsDated) (hnow : env.now.IsInstant)
    (hi : i ∈ b.found.chosen) (hp : i.lastModified = some p.modified) :
    ∃ bytes e, d.contentOf o.cacheFile = .ok bytes ∧
      (CacheEntries.ofFile (some bytes)).get? i.descriptor = some e ∧
      ∀ (o₂ : Options) (d₂ : Disk) (p₂ : ProcedureRow) (i₂ : CollectionItem),
        e.Holds o₂ d₂ p₂ i₂.dependencies ↔ i.StillHolds i₂ p p₂ o₂ d₂ := by
  obtain ⟨bytes, e, hbytes, hentry, hdate, -, hfile, hdependencies⟩ :=
    h.exists_cached hdated hnow hi
  refine ⟨bytes, e, hbytes, hentry, ?_⟩
  intro o₂ d₂ p₂ i₂
  obtain ⟨q, -, hdescribes⟩ := h.selected.exists_row hi
  have hmodified : e.lastModified = p.modified :=
    Option.some.inj (hdate.symm.trans hp)
  have hcanonical : Dependency.canonical e.dependencies = i.dependencies := by
    rw [hdependencies, hdescribes.dependencies, Catalog.canonical_collectedDependencies]
  rw [CacheEntry.holds_iff, hmodified, hcanonical, hfile, CollectionItem.StillHolds]

/-- The next build reuses exactly the unchanged procedures and analyzes the others, whatever the
project was like before, and whichever procedures either build is asked for. -/
theorem selectPhase_reuses_unchanged
    (hdistinct₁ : env₁.catalog.HasDistinctProcedures)
    (hdistinct₂ : env₂.catalog.HasDistinctProcedures)
    (hdated : env₁.catalog.IsDated) (hnow : env₁.now.IsInstant)
    (hfirst : run (complete env₁ o₁) w₁ = (.ok b, w₁')) (hflushed : b.flushed ≠ .failed)
    (hkept : w₂.disk.contentOf o₂.cacheFile = w₁'.disk.contentOf o₁.cacheFile)
    (hcache : o₂.noCache = false) (hdisk : ∀ n, env₂.diskFails n = false)
    (hsecond : run (selectPhase env₂ o₂) w₂ = (.ok found, w₂'))
    (hp₁ : p₁ ∈ env₁.catalog.rows) (hp₂ : p₂ ∈ env₂.catalog.rows)
    (hi₁ : i₁ ∈ b.found.chosen) (hi₂ : i₂ ∈ found.chosen)
    (hsame₁ : p₁.descriptor.same i₁.descriptor = true)
    (hsame₂ : p₂.descriptor.same i₂.descriptor = true)
    (hsame : i₁.descriptor.same i₂.descriptor = true) :
    (i₂.decision = .reuse ↔ i₁.StillHolds i₂ p₁ p₂ o₂ w₂.disk) ∧
      (i₂.decision = .analyze ↔ ¬ i₁.StillHolds i₂ p₁ p₂ o₂ w₂.disk) := by
  obtain ⟨content₁, hcompleted⟩ := complete_eq_ok hfirst hflushed
  obtain ⟨content₂, hselected, -⟩ := selectPhase_eq_ok hsecond
  have hdescribes₁ := hcompleted.selected.describes_of_same hdistinct₁ hi₁ hp₁ hsame₁
  have hdescribes₂ := hselected.describes_of_same hdistinct₂ hi₂ hp₂ hsame₂
  obtain ⟨bytes, e, hbytes, hentry, hholds⟩ :=
    hcompleted.exists_entry_holds_iff hdated hnow hi₁ hdescribes₁.lastModified
  have hcontent : content₂ = some bytes := by
    rw [hselected.unread hdisk, hkept, hbytes]
    rfl
  have hlookup : (Cache.load o₂ content₂).lookup? o₂ p₂.descriptor = some e := by
    rw [Cache.lookup?_load hcache, hcontent, ← hdescribes₂.descriptor,
      ← CacheEntries.get?_congr hsame, hentry]
  rw [hlookup] at hdescribes₂
  rw [← hholds]
  rcases hdescribes₂.chosen with hanalyze | hreuse
  · have hnot := hdescribes₂.analyzed hdisk hanalyze e rfl
    simp [hanalyze, hnot]
  · obtain ⟨e', heq, hheld⟩ := hdescribes₂.reused hreuse
    rw [← Option.some.inj heq] at hheld
    simp [hreuse, hheld]

/-- The sample is built, and `audit.Log` is changed.  In the next build it is analyzed, and
`sales.Ship` is reused. -/
theorem selectPhase_reuses_unchanged_sample :
    ∃ b w found w', run (complete (.calm .sample ⟨5000, 0⟩) .sample) .sample = (.ok b, w) ∧
      run (selectPhase (.calm .sampleLater ⟨9500, 0⟩) .sample) w = (.ok found, w') ∧
      (∃ i ∈ found.chosen, i.descriptor = ⟨"sales", "Ship"⟩ ∧ i.decision = .reuse) ∧
      ∃ i ∈ found.chosen, i.descriptor = ⟨"audit", "Log"⟩ ∧ i.decision = .analyze := by
  obtain ⟨b, w, hfirst, hflushed, hw, -⟩ :=
    exists_complete_sample rfl ⟨5000, 0⟩ rfl (w := .sample) rfl (.refl _)
  obtain ⟨found, w', hsecond, -⟩ :=
    succeeds_selectPhase (Conditions.calm_calm .sampleLater ⟨9500, 0⟩) .sample w hw
  obtain ⟨content, hcompleted⟩ := complete_eq_ok hfirst hflushed
  obtain ⟨content', hselected, -⟩ := selectPhase_eq_ok hsecond
  -- Each of the two procedures has an item in both builds, to which the general theorem applies.
  have hdecides : ∀ p₁ ∈ Catalog.sample.rows, ∀ p₂ ∈ Catalog.sampleLater.rows,
      p₁.descriptor = p₂.descriptor → ∃ i₁ ∈ b.found.chosen, ∃ i₂ ∈ found.chosen,
        i₂.descriptor = p₂.descriptor ∧
        i₁.dependencies = Catalog.sample.collectedDependencies p₁ ∧
        i₂.dependencies = Catalog.sampleLater.collectedDependencies p₂ ∧
        (i₂.decision = .reuse ↔ i₁.StillHolds i₂ p₁ p₂ .sample w.disk) ∧
        (i₂.decision = .analyze ↔ ¬ i₁.StillHolds i₂ p₁ p₂ .sample w.disk) := by
    intro p₁ hp₁ p₂ hp₂ hname
    obtain ⟨i₁, hi₁, hdescribes₁⟩ := hcompleted.selected.exists_item
      Catalog.hasDistinctProcedures_sample (Catalog.selects_sample rfl hp₁)
    obtain ⟨i₂, hi₂, hdescribes₂⟩ := hselected.exists_item
      Catalog.hasDistinctProcedures_sampleLater (Catalog.selects_sample (by decide +kernel) hp₂)
    have hsame : p₁.descriptor.same p₁.descriptor = true := Descriptor.same_refl _
    refine ⟨i₁, hi₁, i₂, hi₂, hdescribes₂.descriptor, hdescribes₁.dependencies,
      hdescribes₂.dependencies, ?_⟩
    exact selectPhase_reuses_unchanged Catalog.hasDistinctProcedures_sample
      Catalog.hasDistinctProcedures_sampleLater Catalog.isDated_sample (by decide +kernel) hfirst
      hflushed rfl rfl (Conditions.calm_calm _ _).diskFails hsecond hp₁ hp₂ hi₁ hi₂
      (hdescribes₁.descriptor ▸ hsame) (by rw [hdescribes₂.descriptor, ← hname, hsame])
      (by rw [hdescribes₁.descriptor, hdescribes₂.descriptor, ← hname, hsame])
  refine ⟨b, w, found, w', hfirst, hsecond, ?_, ?_⟩
  · obtain ⟨i₁, hi₁, i₂, hi₂, hname, hdependencies₁, hdependencies₂, hreuse, -⟩ :=
      hdecides ⟨"sales", "Ship", 1, ⟨1000, 0⟩⟩ (by decide +kernel)
        ⟨"sales", "Ship", 1, ⟨1000, 0⟩⟩ (by decide +kernel) rfl
    refine ⟨i₂, hi₂, hname, hreuse.mpr ⟨by decide, ?_, hcompleted.isFile_recordedFile hi₁⟩⟩
    rw [hdependencies₁, hdependencies₂]
    exact congrArg Dependency.canonical (by decide +kernel)
  · obtain ⟨i₁, hi₁, i₂, hi₂, hname, -, -, -, hanalyze⟩ :=
      hdecides ⟨"audit", "Log", 3, ⟨3000, 0⟩⟩ (by decide +kernel)
        ⟨"audit", "Log", 3, ⟨9000, 0⟩⟩ (by decide +kernel) rfl
    refine ⟨i₂, hi₂, hname, hanalyze.mpr ?_⟩
    intro hholds
    exact absurd hholds.1 (by decide)

end Build

end SqlSnapshot
