import SqlSnapshot.Proofs.Build.Interrupted
import SqlSnapshot.Proofs.Build.Recorded
import SqlSnapshot.Proofs.Definition.TableBindings

/-!
# Cancelled while tables are looked up

Enriching an analysis goes on when the build is cancelled.  A build that is cancelled only then
therefore writes all its snapshots, and says afterwards that it was cancelled.
-/

namespace SqlSnapshot

/-- Every question for the columns of a table cancels the build; nothing fails, and nothing else
cancels it. -/
structure Conditions.CancelsAtTables (env : Conditions) : Prop where
  atTable : ∀ n schema table, env.atCall n (.tableColumns schema table) = some .cancels
  atCall : ∀ n call, (∀ schema table, call ≠ .tableColumns schema table) → env.atCall n call = none
  diskFails : ∀ n, env.diskFails n = false
  cancelsAfter : ∀ phase, env.cancelsAfter phase = false

theorem Conditions.CancelsAtTables.prepares
    {env : Conditions} (henv : env.CancelsAtTables) :
    env.Prepares :=
  ⟨henv.atCall, henv.diskFails, fun phase _ => henv.cancelsAfter phase⟩

/-- Enriching the analysis looks up a table: it fails where no table is given out. -/
def Analysis.NeedsTables (a : Analysis) : Prop :=
  a.enrich (m := Except Unit) (fun _ _ => .error ()) = .error ()

/-- A table was looked up only if the build is cancelled. -/
def World.LooksUpCancelled (w : World) : Prop :=
  w.tables ≠ [] → w.cancelled = true

namespace Build

variable {α β : Type} {env : Conditions} {o : Options} {w w' : World}

/-- The step succeeds and leaves the build cancelled. -/
def Cancels (step : Build α) : Prop :=
  ∀ w, w.LooksUpCancelled → ∃ a w', run step w = (.ok a, w') ∧ w'.cancelled = true

/-- The step succeeds, and leaves the build cancelled if it was or if a table was looked up. -/
def Goes (step : Build α) : Prop :=
  ∀ w, w.LooksUpCancelled → ∃ a w', run step w = (.ok a, w') ∧
    w'.LooksUpCancelled ∧ (w.cancelled = true → w'.cancelled = true)

theorem Cancels.goes
    {step : Build α} (h : Cancels step) :
    Goes step := by
  intro w hw
  obtain ⟨a, w', hrun, hcancelled⟩ := h w hw
  exact ⟨a, w', hrun, fun _ => hcancelled, fun _ => hcancelled⟩

theorem goes_pure (a : α) : Goes (pure a) :=
  fun w hw => ⟨a, w, rfl, hw, id⟩

theorem goes_bind
    {x : Build α} {f : α → Build β} (hx : Goes x) (hf : ∀ a, Goes (f a)) :
    Goes (x >>= f) := by
  intro w hw
  obtain ⟨a, w₁, hrun, hw₁, hcancelled⟩ := hx w hw
  obtain ⟨b, w₂, hrest, hw₂, hcancelled'⟩ := hf a w₁ hw₁
  exact ⟨b, w₂, run_bind_eq_ok.mpr ⟨a, w₁, hrun, hrest⟩, hw₂, hcancelled' ∘ hcancelled⟩

theorem cancels_bind_left
    {x : Build α} {f : α → Build β} (hx : Cancels x) (hf : ∀ a, Goes (f a)) :
    Cancels (x >>= f) := by
  intro w hw
  obtain ⟨a, w₁, hrun, hcancelled⟩ := hx w hw
  obtain ⟨b, w₂, hrest, -, hcancelled'⟩ := hf a w₁ fun _ => hcancelled
  exact ⟨b, w₂, run_bind_eq_ok.mpr ⟨a, w₁, hrun, hrest⟩, hcancelled' hcancelled⟩

theorem cancels_bind_right
    {x : Build α} {f : α → Build β} (hx : Goes x) (hf : ∀ a, Cancels (f a)) :
    Cancels (x >>= f) := by
  intro w hw
  obtain ⟨a, w₁, hrun, hw₁, -⟩ := hx w hw
  obtain ⟨b, w₂, hrest, hcancelled⟩ := hf a w₁ hw₁
  exact ⟨b, w₂, run_bind_eq_ok.mpr ⟨a, w₁, hrun, hrest⟩, hcancelled⟩

theorem cancels_tableColumns
    (henv : env.CancelsAtTables) (schema table : String) :
    Cancels (tableColumns env schema table) := by
  intro w hw
  rw [tableColumns, run_bind_of_eq_ok (run_get w)]
  split
  · rename_i columns hlookup
    refine ⟨columns, w, rfl, hw ?_⟩
    rintro hempty
    rw [hempty] at hlookup
    cases hlookup
  · have hask : run (ask env (.tableColumns schema table) fun c => c.columns? schema table) w =
        (.ok (env.catalog.columns? schema table),
          { w with calls := w.calls ++ [.tableColumns schema table], cancelled := true }) := by
      rw [ask, run_bind_of_eq_ok (run_get w), run_bind_of_eq_ok (run_modify _ w), henv.atTable]
      rfl
    rw [run_bind_of_eq_ok hask]
    exact ⟨_, _, rfl, rfl⟩

/-- A step that mirrors one without tables: the same value where that needs none. -/
def Mirrors (α : Type) (step : Build α) (plain : Except Unit α) : Prop :=
  match plain with
  | .ok a => step = pure a
  | .error _ => Cancels step

theorem Mirrors.goes
    {step : Build α} {plain : Except Unit α} (h : Mirrors α step plain) :
    Goes step := by
  cases plain with
  | ok a =>
    rw [show step = pure a from h]
    exact goes_pure a
  | error u => exact Cancels.goes h

theorem isSimulation_mirrors : Enrichment.IsSimulation Mirrors where
  pure := fun _ => rfl
  bind := by
    intro α β x y f g hx hf
    cases y with
    | ok a =>
      rw [show x = pure a from hx, pure_bind]
      exact hf a
    | error u => exact cancels_bind_left hx fun a => (hf a).goes

theorem mirrors_enrich
    (henv : env.CancelsAtTables) (a : Analysis) :
    Mirrors _ (a.enrich (tableColumns env)) (a.enrich fun _ _ => .error ()) :=
  isSimulation_mirrors.enrich a fun b _ => cancels_tableColumns henv b.schema b.table

theorem goes_enrichAll
    (henv : env.CancelsAtTables) (as : List Analysis) :
    Goes (enrichAll env as) := by
  induction as with
  | nil => exact goes_pure _
  | cons a as ih =>
    apply goes_bind (mirrors_enrich henv a).goes
    intro one
    exact goes_bind ih fun _ => goes_pure _

theorem cancels_enrichAll
    (henv : env.CancelsAtTables) {as : List Analysis} {a : Analysis} (ha : a ∈ as)
    (hneeds : a.NeedsTables) :
    Cancels (enrichAll env as) := by
  induction as with
  | nil => cases ha
  | cons b as ih =>
    rcases List.mem_cons.mp ha with rfl | ha
    · have hmirrors := mirrors_enrich henv a
      rw [hneeds] at hmirrors
      apply cancels_bind_left hmirrors
      intro one
      exact goes_bind (goes_enrichAll henv as) fun _ => goes_pure _
    · apply cancels_bind_right (mirrors_enrich henv b).goes
      intro one
      exact cancels_bind_left (ih ha) fun _ => goes_pure _

/-- A build that is cancelled while it looks up tables ends so only when all snapshots are
written. -/
theorem exists_snapshots_cancelled
    (henv : env.CancelsAtTables) (hw : w.cancelled = false)
    (hthere : w.disk.HasDirectory o.schemaDirectory)
    (hsnapshots : ∀ p ∈ env.catalog.rows,
      w.disk.Takes o.schemaDirectory (Snapshot.fileName p.descriptor))
    (hneeds : ∀ content found results w₁, Prepared env o w content found results w₁ →
      ∃ a ∈ results, a.NeedsTables) :
    ∃ content found results w₁ w', Prepared env o w content found results w₁ ∧
      run (snapshots env o) w = (.error (.cancelled .write), w') ∧
      ∀ a ∈ results, w'.disk.isFile (o.snapshotPath a.descriptor) = true := by
  have henrich : ∀ content found results w₁, Prepared env o w content found results w₁ →
      ∃ enriched w₂, run (enrichAll env results) w₁ = (.ok enriched, w₂) ∧
        (w₂.cancelled || env.cancelsAfter .write) = true := by
    intro content found results w₁ hprepared
    obtain ⟨a, ha, hneeds⟩ := hneeds content found results w₁ hprepared
    obtain ⟨enriched, w₂, hrun, hcancelled⟩ :=
      cancels_enrichAll henv ha hneeds w₁ fun hne => absurd hprepared.tables hne
    exact ⟨enriched, w₂, hrun, by rw [hcancelled, Bool.true_or]⟩
  obtain ⟨content, found, results, w₁, w', hprepared, hrun, -, hfiles, -⟩ :=
    exists_snapshots_cancelled_writing henv.prepares hw hthere hsnapshots henrich
  exact ⟨content, found, results, w₁, w', hprepared, hrun, hfiles⟩

end Build

/-! ## A cancelled build of one procedure -/

namespace Catalog.Single

def select : List Token :=
  [.word "SELECT" false, .word "o" false, .period, .word "Id" false, .word "FROM" false,
   .word "sales" false, .period, .word "Orders" false, .word "o" false]

def definition : List Token :=
  [.word "CREATE" false, .word "PROCEDURE" false, .word "sales" false, .period, .word "Ship" false,
   .word "AS" false] ++ select

def column : ColumnFacts where
  name := "Id"
  kind := .columnRef
  sourceSchema := some "sales"
  sourceTable := some "Orders"
  sourceColumn := some "Id"
  sourceAlias := some "o"

theorem tokenize_eq : Token.tokenize text = .ok definition := by
  decide +kernel

theorem exists_read_eq :
    ∃ set, Body.read [] select = .ok ⟨[set], [], []⟩ ∧ set.columns = [.leaf column] := by
  obtain ⟨set, hread, hcolumns⟩ := Body.exists_read_sampleSelect [] (select.drop 5)
    (by decide +kernel) (by decide +kernel)
  refine ⟨set, hread, ?_⟩
  rw [hcolumns]
  decide +kernel

theorem exists_resultSets_eq (d : Descriptor) :
    ∃ set, (Analysis.ofDefinition d text).content.resultSets = [set] ∧
      set.columns = [.leaf column] := by
  obtain ⟨set, hread, hcolumns⟩ := exists_read_eq
  have hheader : Header.parse definition = .ok ⟨["sales", "Ship"], [], select⟩ := by
    rfl
  have hscan : AggregateAlias.scan text = [] := by
    decide +kernel
  obtain ⟨statements, executed, hstructure⟩ : ∃ statements executed,
      Analysis.readStructure text =
        .ok (({ statements, resultSets := [set], executed } : Content), [], []) := by
    rw [Analysis.readStructure, tokenize_eq, ok_bind, if_neg (by decide +kernel)]
    dsimp only
    rw [hheader, ok_bind, hread]
    exact ⟨_, _, rfl⟩
  rw [Analysis.ofDefinition, hstructure]
  refine ⟨{ set with columns := AggregateAlias.tagColumns [] set.columns }, ?_, ?_⟩
  · simp [AggregateAlias.tag, hscan]
  · rw [hcolumns]
    rfl

theorem needsTables_analyze
    {i : CollectionItem} :
    (AnalysisInput.mk i (some text)).analyze.NeedsTables := by
  obtain ⟨set, hsets, hcolumns⟩ := exists_resultSets_eq i.descriptor
  have hsets' : (AnalysisInput.mk i (some text)).analyze.content.resultSets = [set] := hsets
  have hfails : Enrichment.enrichSets (m := Except Unit) (fun _ _ => .error ())
      (AnalysisInput.mk i (some text)).analyze.descriptor.display [set] = .error () := by
    rw [Enrichment.enrichSets, hcolumns]
    rfl
  rw [Analysis.NeedsTables, Analysis.enrich, hsets', hfails]
  rfl

end Catalog.Single

/-- The build is cancelled while it looks up the only table.  It ends cancelled, and the snapshot
that was not there is there. -/
theorem Build.snapshots_cancelled_at_table :
    let env : Conditions := {
      catalog := .single
      now := ⟨5000, 0⟩
      atCall := fun _ call => match call with
        | .tableColumns _ _ => some .cancels
        | _ => none }
    let path := Options.sample.snapshotPath ⟨"sales", "Ship"⟩
    ∃ w', run (snapshots env .sample) .sample = (.error (.cancelled .write), w') ∧
      Disk.sample.isFile path = false ∧ w'.disk.isFile path = true := by
  intro env path
  have henv : env.CancelsAtTables := by
    refine ⟨fun _ _ _ => rfl, ?_, fun _ => rfl, fun _ => rfl⟩
    intro n call hcall
    cases call with
    | tableColumns schema table => exact absurd rfl (hcall schema table)
    | _ => rfl
  have hrow : ⟨"sales", "Ship", 1, ⟨1000, 0⟩⟩ ∈ Catalog.single.rows := by decide +kernel
  have haccepts : (NameFilter.ofOptions .sample).accepts ⟨"sales", "Ship"⟩ = true := by
    decide +kernel
  have hrows : ∀ p ∈ Catalog.single.rows, p ∈ Catalog.sample.rows := by decide +kernel
  have hdistinct : Catalog.single.HasDistinctProcedures := ⟨by decide +kernel, by decide +kernel⟩
  have hresult : ∀ content found results w₁,
      Prepared env .sample .sample content found results w₁ →
      ∃ a ∈ results, a.descriptor = ⟨"sales", "Ship"⟩ ∧ a.NeedsTables := by
    intro content found results w₁ hprepared
    obtain ⟨i, hi, hdescribes⟩ :=
      hprepared.selected.exists_item hdistinct ⟨_, hrow, haccepts, .refl⟩
    have hanalyze := hprepared.selected.analyze_of_missing Disk.contentOf_cacheFile_sample hi
    have hdefinition : env.catalog.definition? i.descriptor = some Catalog.Single.text := by
      rw [hdescribes.descriptor]
      decide +kernel
    rw [hprepared.results]
    refine ⟨_, List.mem_map_of_mem (mem_decided_analyze_iff.mpr ⟨hi, hanalyze⟩), ?_, ?_⟩
    · rw [AnalysisInput.descriptor_analyze]
      exact hdescribes.descriptor
    · rw [hdefinition]
      exact Catalog.Single.needsTables_analyze
  obtain ⟨content, found, results, w₁, w', hprepared, hrun, hfiles⟩ :=
    exists_snapshots_cancelled henv rfl Disk.hasDirectory_sample
      (fun p hp => Disk.takes_snapshot_sample p (hrows p hp))
      fun content found results w₁ hprepared => by
        obtain ⟨a, ha, -, hneeds⟩ := hresult content found results w₁ hprepared
        exact ⟨a, ha, hneeds⟩
  obtain ⟨a, ha, hname, -⟩ := hresult content found results w₁ hprepared
  refine ⟨w', hrun, by decide +kernel, ?_⟩
  have hfile := hfiles a ha
  rwa [hname] at hfile

end SqlSnapshot
