import SqlSnapshot.Proofs.Build.Outcomes
import SqlSnapshot.Proofs.Build.Success

/-!
# Builds that do not finish

A build that the catalog fails, or that is cancelled, ends before its first write, with one
exception: looking up the columns of tables does not notice that the build was cancelled, so that
the snapshots are written before the build gives up.  The cache file is the old one even then.
-/

namespace SqlSnapshot

def Catalog.Single.text : String := "CREATE PROCEDURE sales.Ship AS SELECT o.Id FROM sales.Orders o"

/-- A project with one procedure, which reads a column of a table. -/
def Catalog.single : Catalog where
  procedures := [⟨⟨"sales", "Ship", 1, ⟨1000, 0⟩⟩, some Single.text⟩]
  tables := [⟨"sales", "Orders", [⟨"Id", "int", none, none, none, false⟩]⟩]

namespace Build

variable {env : Conditions} {o : Options} {w w' : World}

/-- Between the worlds the build was cancelled when it was too late to write nothing. -/
structure CancelledLate (env : Conditions) (o : Options) (w w' : World) : Prop where
  moment : env.cancelsAfter .write = true ∨ w.CancelledAtTable env w'
  writes : w.WritesSnapshots o w'

theorem writePhase_eq_error
    {results : List Analysis} {e : BuildError} (hw : w.cancelled = false)
    (h : run (writePhase env o results) w = (.error e, w')) :
    w'.disk = w.disk ∨ (∃ path, e = .io path) ∨
      e = .cancelled .write ∧ CancelledLate env o w w' := by
  have hkeeps : Leaves World.KeepsDisk (enrichAll env results) :=
    leaves_enrichAll (fun _ _ hdisk => hdisk) results
  rcases run_bind_eq_error.mp h with henrich | ⟨⟨enriched, issues⟩, w₁, henrich, h⟩
  · exact Or.inl (hkeeps.of_run henrich)
  · have hdisk : w₁.disk = w.disk := hkeeps.of_run henrich
    have htables := (asksTables_enrichAll env results).of_run henrich
    rcases run_bind_eq_error.mp h with hwrite | ⟨written, w₂, hwrite, h⟩
    · exact Or.inr (Or.inl (raises_writeSnapshots env o enriched w₁ e w' hwrite))
    · have hgrows : w₁.WritesSnapshots o w₂ :=
        (writesSnapshots_writeSnapshots env o enriched).of_run hwrite
      obtain ⟨hcalls, hcancelled⟩ := (keepsCalls_writeSnapshots env o enriched).of_run hwrite
      rw [report, run_bind_of_eq_ok (run_modify _ w₂)] at h
      rcases run_bind_eq_error.mp h with hcheck | ⟨_, w₃, -, h⟩
      · obtain ⟨rfl, hlate, rfl⟩ := checkCancelled_eq_error hcheck
        refine Or.inr (Or.inr ⟨rfl, ?_, ?_⟩)
        · rcases Bool.or_eq_true_iff.mp hlate with hbefore | hafter
          · right
            rw [hcancelled] at hbefore
            rcases htables.cancelled hbefore with hstart | htable
            · rw [hw] at hstart
              contradiction
            · exact htable.of_prefix_right (hcalls ▸ List.prefix_refl _)
          · exact Or.inl hafter
        · rw [World.WritesSnapshots, hdisk] at hgrows
          exact hgrows
      · cases h

theorem complete_eq_error
    {e : BuildError} (h : run (complete env o) w = (.error e, w')) :
    w'.disk = w.disk ∨ (∃ path, e = .io path) ∨
      e = .cancelled .write ∧ CancelledLate env o w w' := by
  rw [complete_eq] at h
  rcases run_bind_eq_error.mp h with h | ⟨b, w₁, -, h⟩
  · rcases run_bind_eq_error.mp h with hprepare | ⟨⟨found, results⟩, w₁, hprepare, h⟩
    · exact Or.inl ((leaves_prepare (fun _ _ hdisk => hdisk) o).of_run hprepare)
    · obtain ⟨content, hprepared⟩ := prepare_eq_ok hprepare
      rcases run_bind_eq_error.mp h with hwrite | ⟨⟨written, issues⟩, w₂, -, h⟩
      · rcases writePhase_eq_error hprepared.cancelled hwrite with hdisk | hio | ⟨rfl, hlate⟩
        · exact Or.inl (hdisk.trans hprepared.disk)
        · exact Or.inr (Or.inl hio)
        · have hwrites := hlate.writes
          rw [World.WritesSnapshots, hprepared.disk] at hwrites
          exact Or.inr (Or.inr
            ⟨rfl, hlate.moment.imp_right (·.of_prefix_left hprepared.calls), hwrites⟩)
      · rcases run_bind_eq_error.mp h with hflush | ⟨flushed, w₃, -, h⟩
        · exact (raises_flushCache env written w₂ e w' hflush).elim
        · cases h
  · rcases run_bind_eq_error.mp h with hprint | ⟨_, w₂, -, h⟩
    · exact Or.inr (Or.inl ⟨_, raises_fingerprint env _ _ w₁ e w' hprint⟩)
    · cases h

theorem snapshots_eq_error_iff
    {e : BuildError} :
    run (snapshots env o) w = (.error e, w') ↔ run (complete env o) w = (.error e, w') := by
  constructor
  · intro h
    rcases run_bind_eq_error.mp h with hcomplete | ⟨b, w₁, -, h⟩
    · exact hcomplete
    · cases h
  · exact fun hcomplete => run_bind_eq_error.mpr (Or.inl hcomplete)

theorem exists_writePhase_cancelled
    {results enriched : List Analysis} {issues : List Issue} {written : WrittenSnapshots}
    {w₁ w₂ : World} (henrich : run (enrichAll env results) w = (.ok (enriched, issues), w₁))
    (hwrite : run (writeSnapshots env o enriched) w₁ = (.ok written, w₂))
    (hcancelled : (w₁.cancelled || env.cancelsAfter .write) = true) :
    ∃ w₃, run (writePhase env o results) w = (.error (.cancelled .write), w₃) ∧
      w₃.disk = w₂.disk := by
  have hkept : w₂.cancelled = w₁.cancelled :=
    ((keepsCalls_writeSnapshots env o enriched).of_run hwrite).2
  rw [writePhase, run_bind_of_eq_ok henrich]
  dsimp only
  rw [run_bind_of_eq_ok hwrite, report, run_bind_of_eq_ok (run_modify _ w₂), run_bind,
    run_checkCancelled]
  simp [hkept, hcancelled]

theorem untilFlushed_eq_error_of_writePhase
    {found : Collection} {results : List Analysis} {e : BuildError} {w₁ : World}
    (hprepare : run (prepare env o) w = (.ok (found, results), w₁))
    (hwrite : run (writePhase env o results) w₁ = (.error e, w')) :
    run (untilFlushed env o) w = (.error e, w') := by
  rw [untilFlushed, run_bind_of_eq_ok hprepare]
  exact run_bind_eq_error.mpr (Or.inl hwrite)

/-- A build that is cancelled by the end of its writing ends so when all snapshots are written. -/
theorem exists_snapshots_cancelled_writing
    (henv : env.Prepares) (hw : w.cancelled = false)
    (hthere : w.disk.HasDirectory o.schemaDirectory)
    (hsnapshots : ∀ p ∈ env.catalog.rows,
      w.disk.Takes o.schemaDirectory (Snapshot.fileName p.descriptor))
    (henrich : ∀ content found results w₁, Prepared env o w content found results w₁ →
      ∃ enriched w₂, run (enrichAll env results) w₁ = (.ok enriched, w₂) ∧
        (w₂.cancelled || env.cancelsAfter .write) = true) :
    ∃ content found results w₁ w', Prepared env o w content found results w₁ ∧
      run (snapshots env o) w = (.error (.cancelled .write), w') ∧ w.WritesSnapshots o w' ∧
      (∀ a ∈ results, w'.disk.isFile (o.snapshotPath a.descriptor) = true) ∧
      ((results.Pairwise fun a b =>
          Snapshot.fileName a.descriptor ≠ Snapshot.fileName b.descriptor) →
        ∀ a ∈ results, w'.disk.contentOf (o.snapshotPath a.descriptor) =
          .ok (Snapshot.ofAnalysis (a.enriched env.catalog.columns?)).canonicalBytes) := by
  obtain ⟨⟨found, results⟩, w₁, hprepare, -⟩ := succeeds_prepare henv o w hw
  obtain ⟨content, hprepared⟩ := prepare_eq_ok hprepare
  obtain ⟨⟨enriched, issues⟩, w₂, henrich, hw₂⟩ := henrich content found results w₁ hprepared
  obtain ⟨rfl, hdisk₂, -⟩ := enrichAll_eq_ok hprepared.tablesAgree henrich
  have htakes : ∀ b ∈ results.map (·.enriched env.catalog.columns?),
      w₂.disk.Takes o.schemaDirectory (Snapshot.fileName b.descriptor) := by
    intro b hb
    obtain ⟨a, ha, rfl⟩ := List.mem_map.mp hb
    rw [Analysis.descriptor_enriched, hdisk₂]
    exact hprepared.takes hsnapshots a ha
  have hthere₂ : w₂.disk.HasDirectory o.schemaDirectory := by
    rw [hdisk₂, hprepared.disk]
    exact hthere
  obtain ⟨written, w₃, hwrite, -⟩ := exists_writeSnapshots_eq_ok henv.diskFails hthere₂ htakes
  obtain ⟨-, -, -, hfiles, -, hcontents⟩ := writeSnapshots_eq_ok hwrite
  obtain ⟨w₄, hphase, hdisk₄⟩ := exists_writePhase_cancelled henrich hwrite hw₂
  have huntil := untilFlushed_eq_error_of_writePhase hprepare hphase
  have hbuild : run (snapshots env o) w = (.error (.cancelled .write), w₄) := by
    rw [snapshots_eq_error_iff, complete_eq]
    exact run_bind_eq_error.mpr (Or.inl huntil)
  have hmem : ∀ a ∈ results, a.enriched env.catalog.columns? ∈
      results.map (·.enriched env.catalog.columns?) :=
    fun a ha => List.mem_map_of_mem ha
  refine ⟨content, found, results, w₁, w₄, hprepared, hbuild,
    writesSnapshots_untilFlushed huntil (by simp), fun a ha => ?_, fun hnames a ha => ?_⟩
  · have hfile := hfiles _ (hmem a ha)
    rwa [Analysis.descriptor_enriched, ← hdisk₄] at hfile
  · have hnames' : (results.map (·.enriched env.catalog.columns?)).Pairwise fun a b =>
        Snapshot.fileName a.descriptor ≠ Snapshot.fileName b.descriptor := by
      rw [List.pairwise_map]
      simpa only [Analysis.descriptor_enriched] using hnames
    have hcontent := hcontents hnames' _ (hmem a ha)
    rwa [Analysis.descriptor_enriched, ← hdisk₄] at hcontent

/-- A build that the catalog fails leaves the disk as it was, whichever call failed. -/
theorem catalog_failure_keeps_disk
    {reason : String} (h : run (snapshots env o) w = (.error (.catalog reason), w')) :
    w'.disk = w.disk := by
  rcases complete_eq_error (snapshots_eq_error_iff.mp h) with hdisk | ⟨path, hio⟩ | ⟨hcancelled, -⟩
  · exact hdisk
  · cases hio
  · cases hcancelled

/-- The third call fails, which asks for the definition of the first procedure. -/
theorem catalog_failure_keeps_disk_sample :
    let env : Conditions := {
      catalog := .single
      now := ⟨5000, 0⟩
      atCall := fun n _ => if n = 2 then some (.fails "gone") else none }
    ∃ w', run (snapshots env .sample) .sample = (.error (.catalog "gone"), w') ∧
      w'.calls = [.listProcedures, .listDependencyEdges,
        .procedureDefinition ⟨"sales", "Ship"⟩] ∧
      w'.disk = .sample := by
  intro env
  have houtcome : (run (snapshots env .sample) .sample).1 = .error (.catalog "gone") := by
    decide +kernel
  have hrun : run (snapshots env .sample) .sample =
      (.error (.catalog "gone"), (run (snapshots env .sample) .sample).2) :=
    Prod.ext houtcome rfl
  exact ⟨_, hrun, by decide +kernel, catalog_failure_keeps_disk hrun⟩

/-- A build that was cancelled leaves the disk as it was, unless it was cancelled while the columns
of a table were looked up or after everything was written.  Then too the cache file is the old
one. -/
theorem cancellation_keeps_files
    {phase : Phase} (h : run (snapshots env o) w = (.error (.cancelled phase), w')) :
    (w'.disk = w.disk ∨
      phase = .write ∧ (env.cancelsAfter .write = true ∨ w.CancelledAtTable env w')) ∧
    w.disk.KeepsFile (w.disk.place o.cacheFile) w'.disk := by
  rcases complete_eq_error (snapshots_eq_error_iff.mp h) with hdisk | ⟨path, hio⟩ | ⟨hphase, hlate⟩
  · exact ⟨Or.inl hdisk, fun content => by rw [hdisk]⟩
  · cases hio
  · cases hphase
    exact ⟨Or.inr ⟨rfl, hlate.moment⟩, hlate.writes.keepsFile_cacheFile⟩

/-- The build is cancelled while it asks for the definition of the first procedure. -/
theorem cancellation_keeps_files_sample :
    let env : Conditions := {
      catalog := .single
      now := ⟨5000, 0⟩
      atCall := fun n _ => if n = 2 then some .cancels else none }
    ∃ w', run (snapshots env .sample) .sample = (.error (.cancelled .analyze), w') ∧
      w'.disk = .sample := by
  intro env
  have houtcome : (run (snapshots env .sample) .sample).1 = .error (.cancelled .analyze) := by
    decide +kernel
  have hrun : run (snapshots env .sample) .sample =
      (.error (.cancelled .analyze), (run (snapshots env .sample) .sample).2) :=
    Prod.ext houtcome rfl
  refine ⟨_, hrun, ?_⟩
  rcases (cancellation_keeps_files hrun).1 with hdisk | ⟨hphase, -⟩
  · exact hdisk
  · cases hphase

end Build

end SqlSnapshot
