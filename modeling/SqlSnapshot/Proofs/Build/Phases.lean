import SqlSnapshot.Build.Run
import SqlSnapshot.Proofs.Build.Effects
import SqlSnapshot.Proofs.Cache.Recording
import SqlSnapshot.Proofs.Enrichment
import SqlSnapshot.Proofs.Layout

/-!
# What the phases of a build do

Reusing and analyzing leave the disk alone; what an analysis says is a function of the catalog, also
where its tables were looked up before.  Writing leaves every snapshot on the disk and changes no
other file.
-/

namespace SqlSnapshot

/-- The analysis of a collected procedure, as a function of the catalog. -/
def CollectionItem.analysis (c : Catalog) (i : CollectionItem) : Analysis :=
  (AnalysisInput.mk i (c.definition? i.descriptor)).analyze.enriched c.columns?

namespace AnalysisInput

variable (i : AnalysisInput)

@[simp]
theorem descriptor_analyze : i.analyze.descriptor = i.item.descriptor := by
  unfold analyze
  split <;> rfl

@[simp]
theorem lastModified_analyze : i.analyze.lastModified = i.item.lastModified := rfl

@[simp]
theorem dependencies_analyze : i.analyze.dependencies = i.item.dependencies := rfl

end AnalysisInput

namespace CollectionItem

variable (c : Catalog) (i : CollectionItem)

@[simp]
theorem descriptor_analysis : (i.analysis c).descriptor = i.descriptor := by
  simp [analysis]

@[simp]
theorem lastModified_analysis : (i.analysis c).lastModified = i.lastModified := by
  simp [analysis]

@[simp]
theorem dependencies_analysis : (i.analysis c).dependencies = i.dependencies := by
  simp [analysis]

end CollectionItem

namespace WrittenSnapshots

/-- The counters of the batch are the lengths of its lists. -/
structure IsCounted (s : WrittenSnapshots) : Prop where
  updated : s.filesWritten = s.updated.length
  unchanged : s.filesUnchanged = s.unchanged.length

variable {s : WrittenSnapshots}

theorem IsCounted.addUnchanged
    (h : s.IsCounted) (a : Analysis) :
    (s.addUnchanged a).IsCounted :=
  ⟨h.updated, congrArg (· + 1) h.unchanged⟩

theorem IsCounted.addUpdated
    (h : s.IsCounted) (a : Analysis) :
    (s.addUpdated a).IsCounted :=
  ⟨congrArg (· + 1) h.updated, h.unchanged⟩

end WrittenSnapshots

namespace Build

variable {env : Conditions} {o : Options} {w w' : World} {found : Collection}

/-! ## Reusing and analyzing -/

theorem reusePhase_eq_ok
    {u : Unit} (h : run (reusePhase env found) w = (.ok u, w')) :
    w'.disk = w.disk ∧ w'.tables = w.tables ∧ w'.calls = w.calls ∧
      w'.cache =
        ((found.decided .reuse).filterMap (Cache.reuseRecord? w.cache.loaded env.now)).foldl
          Cache.stage w.cache := by
  unfold reusePhase at h
  rw [run_bind_of_eq_ok (run_modify _ w)] at h
  obtain ⟨_, w₁, hreport, hrest⟩ := run_bind_eq_ok.mp h
  cases hreport
  rw [checkCancelled_eq_ok hrest, ← Cache.foldl_recordReuse]
  exact ⟨rfl, rfl, rfl, rfl⟩

def AsksDefinition (items : List CollectionItem) (call : Call) : Prop :=
  ∃ i ∈ items, call = .procedureDefinition i.descriptor

theorem inputsOf_eq_ok
    {items : List CollectionItem} {inputs : List AnalysisInput}
    (h : run (inputsOf env items) w = (.ok inputs, w')) :
    inputs = (items.map fun i => ⟨i, env.catalog.definition? i.descriptor⟩) ∧
      World.Asks (AsksDefinition items) w w' := by
  induction items generalizing inputs w w' with
  | nil =>
    cases h
    exact ⟨rfl, .refl _⟩
  | cons i items ih =>
    rw [inputsOf] at h
    obtain ⟨definition, w₁, hask, hrest⟩ := run_bind_eq_ok.mp (eq_ok_of_checkCancelled h)
    obtain ⟨rfl, -⟩ := ask_eq_ok hask
    have hasks : World.Asks (AsksDefinition (i :: items)) w w₁ :=
      asks_of_ask ⟨i, List.mem_cons_self, rfl⟩ hask
    obtain ⟨others, w₂, hothers, hrest⟩ := run_bind_eq_ok.mp hrest
    obtain ⟨rfl, hasks'⟩ := ih hothers
    cases hrest
    refine ⟨rfl, hasks.trans (hasks'.mono ?_)⟩
    rintro call ⟨j, hj, hcall⟩
    exact ⟨j, List.mem_cons_of_mem i hj, hcall⟩

theorem analyzePhase_eq_ok
    {results : List Analysis} (h : run (analyzePhase env found) w = (.ok results, w')) :
    results = ((found.decided .analyze).map fun i =>
        (AnalysisInput.mk i (env.catalog.definition? i.descriptor)).analyze) ∧
      World.Asks (AsksDefinition (found.decided .analyze)) w w' := by
  obtain ⟨inputs, w₁, hinputs, hrest⟩ := run_bind_eq_ok.mp h
  obtain ⟨rfl, hasks⟩ := inputsOf_eq_ok hinputs
  rw [run_bind_of_eq_ok (run_get w₁)] at hrest
  obtain ⟨as, w₂, hanalyze, hrest⟩ := run_bind_eq_ok.mp hrest
  obtain ⟨_, w₃, hreport, hrest⟩ := run_bind_eq_ok.mp hrest
  have hasks' : World.Asks (AsksDefinition (found.decided .analyze)) w₂ w₃ := report_eq_ok hreport
  have hcheck := eq_ok_of_checkCancelled hrest
  cases hcheck
  unfold AnalysisInput.analyzeAll at hanalyze
  split at hanalyze
  · cases hanalyze
  · cases hanalyze
    exact ⟨by rw [List.map_map]; rfl, hasks.trans hasks'⟩

/-! ## Enriching -/

def TablesAgree (c : Catalog) (tables : TableCache) : Prop :=
  ∀ schema table columns, tables.lookup (objectKey schema table) = some columns →
    columns = c.columns? schema table

theorem tablesAgree_nil (c : Catalog) : TablesAgree c [] := by
  intro schema table columns h
  simp at h

theorem TablesAgree.cons
    {c : Catalog} {tables : TableCache} (h : TablesAgree c tables) (schema table : String) :
    TablesAgree c ((objectKey schema table, c.columns? schema table) :: tables) := by
  intro schema' table' columns hlookup
  rw [List.lookup_cons] at hlookup
  split at hlookup
  · rename_i heq
    simp only [beq_iff_eq] at heq
    rw [← Option.some.inj hlookup, Catalog.columns?, Catalog.columns?, heq]
  · exact h _ _ _ hlookup

/-- Where the tables agree, the step gives the value if it succeeds. -/
def Computes (env : Conditions) (α : Type) (step : Build α) (a : Id α) : Prop :=
  ∀ w b w', TablesAgree env.catalog w.tables → run step w = (.ok b, w') →
    b = Id.run a ∧ TablesAgree env.catalog w'.tables ∧ w'.disk = w.disk ∧ w'.cache = w.cache

theorem isSimulation_computes (env : Conditions) : Enrichment.IsSimulation (Computes env) where
  pure := by
    intro α a w b w' htables h
    cases h
    exact ⟨rfl, htables, rfl, rfl⟩
  bind := by
    intro α β x y f g hx hf w b w' htables h
    obtain ⟨a, w₁, hrun, hrest⟩ := run_bind_eq_ok.mp h
    obtain ⟨rfl, htables₁, hdisk₁, hcache₁⟩ := hx w a w₁ htables hrun
    obtain ⟨rfl, htables₂, hdisk₂, hcache₂⟩ := hf _ w₁ b w' htables₁ hrest
    exact ⟨rfl, htables₂, hdisk₂.trans hdisk₁, hcache₂.trans hcache₁⟩

theorem computes_tableColumns
    (env : Conditions) (schema table : String) :
    Computes env _ (tableColumns env schema table) (env.catalog.columns? schema table) := by
  intro w b w' htables h
  unfold tableColumns at h
  dsimp only at h
  rw [run_bind_of_eq_ok (run_get w)] at h
  split at h
  · rename_i columns hlookup
    cases h
    exact ⟨htables _ _ _ hlookup, htables, rfl, rfl⟩
  · obtain ⟨columns, w₁, hask, hrest⟩ := run_bind_eq_ok.mp h
    obtain ⟨rfl, -, hdisk, hcache, htables₁⟩ := ask_eq_ok hask
    rw [run_bind_of_eq_ok (run_modify _ w₁)] at hrest
    cases hrest
    refine ⟨rfl, ?_, hdisk, hcache⟩
    dsimp only
    rw [htables₁]
    exact htables.cons schema table

theorem enrichAll_eq_ok
    {as enriched : List Analysis} {issues : List Issue}
    (htables : TablesAgree env.catalog w.tables)
    (h : run (enrichAll env as) w = (.ok (enriched, issues), w')) :
    enriched = as.map (·.enriched env.catalog.columns?) ∧ w'.disk = w.disk ∧
      w'.cache = w.cache := by
  induction as generalizing enriched issues w w' with
  | nil =>
    cases h
    exact ⟨rfl, rfl, rfl⟩
  | cons a as ih =>
    rw [enrichAll] at h
    obtain ⟨⟨one, notes⟩, w₁, hone, hrest⟩ := run_bind_eq_ok.mp h
    obtain ⟨heq, htables₁, hdisk₁, hcache₁⟩ :=
      (isSimulation_computes env).enrich a (fun b _ => computes_tableColumns env _ _) w _ w₁
        htables hone
    obtain ⟨⟨others, issues'⟩, w₂, hothers, hrest⟩ := run_bind_eq_ok.mp hrest
    obtain ⟨rfl, hdisk₂, hcache₂⟩ := ih htables₁ hothers
    cases hrest
    have hfirst : one = a.enriched env.catalog.columns? := congrArg Prod.fst heq
    exact ⟨by rw [hfirst, List.map_cons], hdisk₂.trans hdisk₁, hcache₂.trans hcache₁⟩

/-! ## Writing -/

theorem replaceFile_eq_ok
    {directory name : String} {content : ByteArray}
    (h : run (replaceFile env directory name content) w = (.ok true, w')) :
    w.disk.replaceFile directory name content = (w'.disk, .ok ()) ∧ w'.cache = w.cache := by
  obtain ⟨houtcome, -, hcache, -⟩ := access_eq_ok h
  rcases houtcome with ⟨-, hfalse, -⟩ | ⟨-, hok, hdisk⟩
  · contradiction
  · refine ⟨?_, hcache⟩
    rw [hdisk]
    cases hreplaced : w.disk.replaceFile directory name content with
    | mk d outcome =>
      rw [hreplaced] at hok
      cases outcome with
      | ok u => rfl
      | error e => simp [Except.isOk, Except.toBool] at hok

theorem replaceFile_eq_false
    {directory name : String} {content : ByteArray}
    (h : run (replaceFile env directory name content) w = (.ok false, w'))
    (changed : Location → Prop) :
    Disk.Grows changed w.disk w'.disk := by
  obtain ⟨houtcome, -⟩ := access_eq_ok h
  rcases houtcome with ⟨-, -, hdisk⟩ | ⟨-, hfailed, hdisk⟩
  · exact hdisk ▸ .refl _ _
  · rw [hdisk]
    cases hreplaced : w.disk.replaceFile directory name content with
    | mk d outcome =>
      rw [hreplaced] at hfailed
      cases outcome with
      | ok u => cases hfailed
      | error e => exact Disk.replaceFile_eq_error hreplaced changed

theorem makeDirectories_eq_ok
    {path : String} (h : run (makeDirectories env path) w = (.ok true, w')) :
    (∃ l, w.disk.makeDirectories path = (w'.disk, .ok l)) ∧ w'.cache = w.cache := by
  obtain ⟨houtcome, -, hcache, -⟩ := access_eq_ok h
  rcases houtcome with ⟨-, hfalse, -⟩ | ⟨-, hok, hdisk⟩
  · contradiction
  · refine ⟨?_, hcache⟩
    rw [hdisk]
    cases hmade : w.disk.makeDirectories path with
    | mk d outcome =>
      rw [hmade] at hok
      cases outcome with
      | ok l => exact ⟨l, rfl⟩
      | error e => simp [Except.isOk, Except.toBool] at hok

theorem eq_ok_of_toOption
    {ε α : Type} {x : Except ε α} {a : α} (h : x.toOption = some a) :
    x = .ok a := by
  cases x with
  | error e => contradiction
  | ok b => rw [Option.some.inj h]

theorem eq_some_of_beq
    {content : Option ByteArray} {bytes : ByteArray} (h : (content == some bytes) = true) :
    content = some bytes := by
  cases content with
  | none => contradiction
  | some read =>
    have hdata : (read.data == bytes.data) = true := h
    rw [beq_iff_eq] at hdata
    rw [ByteArray.ext hdata]

/-- The first snapshot of a batch is on the disk before the next one is written. -/
theorem writeEach_cons_eq_ok
    {a : Analysis} {as : List Analysis} {written : WrittenSnapshots}
    (h : run (writeEach env o.schemaDirectory (a :: as)) w = (.ok written, w')) :
    ∃ w₁ rest, Disk.Grows (· = w.disk.place (o.snapshotPath a.descriptor)) w.disk w₁.disk ∧
      w₁.disk.contentOf (o.snapshotPath a.descriptor) =
        .ok (Snapshot.ofAnalysis a).canonicalBytes ∧
      w₁.cache = w.cache ∧ run (writeEach env o.schemaDirectory as) w₁ = (.ok rest, w') ∧
      (written = rest.addUnchanged (withSnapshot a) ∨
        written = rest.addUpdated (withSnapshot a)) := by
  rw [writeEach] at h
  obtain ⟨content, w₁, hcontent, hrest⟩ := run_bind_eq_ok.mp h
  obtain ⟨houtcome, hasks⟩ := contentOf_eq_ok (fun _ => True) hcontent
  split at hrest
  · rename_i hsame
    obtain ⟨rest, w₂, hrun, hrest⟩ := run_bind_eq_ok.mp hrest
    cases hrest
    refine ⟨w₁, rest, ?_, ?_, hasks.cache, hrun, Or.inl rfl⟩
    · rw [hasks.disk]
      exact .refl _ _
    · rw [hasks.disk]
      rcases houtcome with ⟨hnone, -⟩ | hread
      · rw [eq_some_of_beq hsame] at hnone
        contradiction
      · rw [eq_some_of_beq hsame] at hread
        exact eq_ok_of_toOption hread.symm
  · obtain ⟨replaced, w₂, hreplace, hrest⟩ := run_bind_eq_ok.mp hrest
    cases replaced with
    | false => cases hrest
    | true =>
      obtain ⟨rest, w₃, hrun, hrest⟩ := run_bind_eq_ok.mp hrest
      cases hrest
      obtain ⟨hdisk, hcache⟩ := replaceFile_eq_ok hreplace
      obtain ⟨hgrows, hwritten⟩ := Disk.replaceFile_eq_ok o.isPlain_stateDirectory
        Options.isName_schema (Snapshot.isName_fileName a.descriptor) hdisk
      rw [hasks.disk] at hgrows
      exact ⟨w₂, rest, hgrows, hwritten, hcache.trans hasks.cache, hrun, Or.inr rfl⟩

theorem writeEach_eq_ok
    {as : List Analysis} {written : WrittenSnapshots}
    (h : run (writeEach env o.schemaDirectory as) w = (.ok written, w')) :
    Disk.Grows (fun l => ∃ a ∈ as, l = w.disk.place (o.snapshotPath a.descriptor)) w.disk w'.disk ∧
      (written.updated ++ written.unchanged).Perm (as.map withSnapshot) ∧
      (∀ a ∈ as, w'.disk.isFile (o.snapshotPath a.descriptor) = true) ∧
      w'.cache = w.cache := by
  induction as generalizing written w with
  | nil =>
    cases h
    exact ⟨.refl _ _, .refl _, by simp, rfl⟩
  | cons a as ih =>
    obtain ⟨w₁, rest, hgrows, hcontent, hcache, hrun, hwritten⟩ := writeEach_cons_eq_ok h
    obtain ⟨hgrows', hperm, hfiles, hcache'⟩ := ih hrun
    refine ⟨?_, ?_, ?_, hcache'.trans hcache⟩
    · apply (hgrows.mono fun l hl => ⟨a, List.mem_cons_self, hl⟩).trans
      apply hgrows'.mono
      intro l hl
      obtain ⟨b, hb, hplace⟩ := hl
      exact ⟨b, List.mem_cons_of_mem a hb, hplace.trans (Disk.place_congr hgrows.here _)⟩
    · rw [List.map_cons]
      rcases hwritten with rfl | rfl
      · exact List.perm_middle.trans (hperm.cons _)
      · exact hperm.cons _
    · intro b hb
      rcases List.mem_cons.mp hb with rfl | hb
      · exact Disk.isFile_of_grows hgrows' (Disk.isFile_iff.mpr ⟨_, hcontent⟩)
      · exact hfiles b hb

theorem contentOf_of_writeEach
    {as : List Analysis} {written : WrittenSnapshots}
    (hnames : as.Pairwise fun a b =>
      Snapshot.fileName a.descriptor ≠ Snapshot.fileName b.descriptor)
    (h : run (writeEach env o.schemaDirectory as) w = (.ok written, w')) {a : Analysis}
    (ha : a ∈ as) :
    w'.disk.contentOf (o.snapshotPath a.descriptor) =
      .ok (Snapshot.ofAnalysis a).canonicalBytes := by
  induction as generalizing written w with
  | nil => simp at ha
  | cons b as ih =>
    obtain ⟨hfirst, hothers⟩ := List.pairwise_cons.mp hnames
    obtain ⟨w₁, rest, hgrows, hcontent, -, hrun, -⟩ := writeEach_cons_eq_ok h
    rcases List.mem_cons.mp ha with rfl | ha
    · apply Disk.contentOf_of_grows (writeEach_eq_ok hrun).1 _ hcontent
      rintro ⟨c, hc, hplace⟩
      exact o.place_snapshotPath_ne w₁.disk (hfirst c hc) hplace
    · exact ih hothers hrun ha

theorem isCounted_of_writeEach
    {as : List Analysis} {written : WrittenSnapshots}
    (h : run (writeEach env o.schemaDirectory as) w = (.ok written, w')) :
    written.IsCounted := by
  induction as generalizing written w with
  | nil =>
    cases h
    exact ⟨rfl, rfl⟩
  | cons a as ih =>
    obtain ⟨w₁, rest, -, -, -, hrun, rfl | rfl⟩ := writeEach_cons_eq_ok h
    · exact (ih hrun).addUnchanged _
    · exact (ih hrun).addUpdated _

theorem isCounted_of_writeSnapshots
    {as : List Analysis} {written : WrittenSnapshots}
    (h : run (writeSnapshots env o as) w = (.ok written, w')) :
    written.IsCounted := by
  obtain ⟨made, w₁, -, hwrite⟩ := run_bind_eq_ok.mp h
  cases made with
  | false => cases hwrite
  | true => exact isCounted_of_writeEach hwrite

theorem isCounted_of_writePhase
    {results : List Analysis} {written : WrittenSnapshots} {issues : List Issue}
    (h : run (writePhase env o results) w = (.ok (written, issues), w')) :
    written.IsCounted := by
  obtain ⟨⟨enriched, issues'⟩, w₁, -, hrest⟩ := run_bind_eq_ok.mp h
  obtain ⟨written', w₂, hwrite, hrest⟩ := run_bind_eq_ok.mp hrest
  obtain ⟨_, w₃, -, hrest⟩ := run_bind_eq_ok.mp hrest
  have hcheck := eq_ok_of_checkCancelled hrest
  cases hcheck
  exact isCounted_of_writeSnapshots hwrite

/-- What is left after a batch is written. -/
theorem writeSnapshots_eq_ok
    {as : List Analysis} {written : WrittenSnapshots}
    (h : run (writeSnapshots env o as) w = (.ok written, w')) :
    Disk.Grows (fun l => ∃ a ∈ as, l = w.disk.place (o.snapshotPath a.descriptor)) w.disk w'.disk ∧
      w'.disk.HasDirectory o.schemaDirectory ∧
      (written.updated ++ written.unchanged).Perm (as.map withSnapshot) ∧
      (∀ a ∈ as, w'.disk.isFile (o.snapshotPath a.descriptor) = true) ∧
      w'.cache = w.cache ∧
      ((as.Pairwise fun a b => Snapshot.fileName a.descriptor ≠ Snapshot.fileName b.descriptor) →
        ∀ a ∈ as, w'.disk.contentOf (o.snapshotPath a.descriptor) =
          .ok (Snapshot.ofAnalysis a).canonicalBytes) := by
  obtain ⟨made, w₁, hmake, hwrite⟩ := run_bind_eq_ok.mp h
  cases made with
  | false => cases hwrite
  | true =>
    obtain ⟨⟨l, hmade⟩, hcache₁⟩ := makeDirectories_eq_ok hmake
    obtain ⟨hgrows₁, hdirectory, -⟩ := Disk.makeDirectories_eq_ok
      (fun l => ∃ a ∈ as, l = w.disk.place (o.snapshotPath a.descriptor))
      o.isPlain_stateDirectory Options.isName_schema hmade
    obtain ⟨hgrows₂, hperm, hfiles, hcache₂⟩ := writeEach_eq_ok hwrite
    refine ⟨hgrows₁.trans (hgrows₂.mono ?_), hdirectory.of_grows hgrows₂, hperm, hfiles,
      hcache₂.trans hcache₁, fun hnames a ha => contentOf_of_writeEach hnames hwrite ha⟩
    rintro l ⟨a, ha, hplace⟩
    exact ⟨a, ha, hplace.trans (Disk.place_congr hgrows₁.here _)⟩

/-- What is left after the snapshots are written; `results` are the analyses before enrichment. -/
theorem writePhase_eq_ok
    {results : List Analysis} {written : WrittenSnapshots} {issues : List Issue}
    (htables : TablesAgree env.catalog w.tables)
    (h : run (writePhase env o results) w = (.ok (written, issues), w')) :
    Disk.Grows (fun l => ∃ a ∈ results, l = w.disk.place (o.snapshotPath a.descriptor))
        w.disk w'.disk ∧
      w'.disk.HasDirectory o.schemaDirectory ∧
      (written.updated ++ written.unchanged).Perm
        (results.map fun a => withSnapshot (a.enriched env.catalog.columns?)) ∧
      (∀ a ∈ results, w'.disk.isFile (o.snapshotPath a.descriptor) = true) ∧
      w'.cache = w.cache ∧
      ((results.Pairwise fun a b =>
          Snapshot.fileName a.descriptor ≠ Snapshot.fileName b.descriptor) →
        ∀ a ∈ results, w'.disk.contentOf (o.snapshotPath a.descriptor) =
          .ok (Snapshot.ofAnalysis (a.enriched env.catalog.columns?)).canonicalBytes) := by
  obtain ⟨⟨enriched, issues'⟩, w₁, henrich, hrest⟩ := run_bind_eq_ok.mp h
  obtain ⟨rfl, hdisk₁, hcache₁⟩ := enrichAll_eq_ok htables henrich
  obtain ⟨written', w₂, hwrite, hrest⟩ := run_bind_eq_ok.mp hrest
  obtain ⟨_, w₃, hreport, hrest⟩ := run_bind_eq_ok.mp hrest
  have hasks : World.Asks (fun _ => True) w₂ w₃ := report_eq_ok hreport
  have hcheck := eq_ok_of_checkCancelled hrest
  cases hcheck
  obtain ⟨hgrows, hdirectory, hperm, hfiles, hcache₂, hcontents⟩ := writeSnapshots_eq_ok hwrite
  have hmem : ∀ a ∈ results,
      a.enriched env.catalog.columns? ∈ results.map (·.enriched env.catalog.columns?) :=
    fun a ha => List.mem_map_of_mem ha
  rw [hdisk₁] at hgrows
  rw [hasks.disk, hasks.cache, hcache₂, hcache₁]
  refine ⟨hgrows.mono ?_, hdirectory, ?_, ?_, rfl, ?_⟩
  · rintro l ⟨b, hb, hplace⟩
    obtain ⟨a, ha, rfl⟩ := List.mem_map.mp hb
    exact ⟨a, ha, hplace⟩
  · rw [List.map_map] at hperm
    exact hperm
  · intro a ha
    have hfile := hfiles _ (hmem a ha)
    rwa [Analysis.descriptor_enriched] at hfile
  · intro hnames a ha
    have hcontent := hcontents (List.pairwise_map.mpr hnames) _ (hmem a ha)
    rwa [Analysis.descriptor_enriched] at hcontent

end Build

end SqlSnapshot
