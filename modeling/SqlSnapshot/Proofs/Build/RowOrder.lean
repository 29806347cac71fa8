import SqlSnapshot.Proofs.Build.Success
import SqlSnapshot.Proofs.Collection.Reordered

/-!
# Builds of a reordered catalog

The order of the rows of a catalog decides in which order a build asks for modify dates, and nothing
else.  Two builds are therefore run side by side on worlds that differ in the recorded calls alone:
while procedures are collected the two ask different questions and come to the same collection, and
from there on they take the same steps.
-/

namespace SqlSnapshot

def Conditions.withCatalog (env : Conditions) (c : Catalog) : Conditions :=
  { env with catalog := c }

@[simp]
theorem Conditions.catalog_withCatalog (env : Conditions) (c : Catalog) :
    (env.withCatalog c).catalog = c := rfl

/-- The worlds differ at most in the calls that were made. -/
def World.Matches (w v : World) : Prop :=
  ∃ calls, v = { w with calls }

/-! ## The dependencies of a procedure -/

namespace DependencyKind

theorem rank_injective {k k' : DependencyKind} (h : k.rank = k'.rank) : k = k' := by
  cases k <;> cases k' <;> first | rfl | contradiction

end DependencyKind

namespace Catalog

variable {c c' : Catalog} {p : ProcedureRow}

theorem Reorders.kindOf?_eq
    (h : c.Reorders c') (hc : c.IsUnambiguous) :
    Build.kindOf? c'.graph = Build.kindOf? c.graph := by
  funext e
  rw [Build.kindOf?, Build.kindOf?, ReferenceGraph.isProcedure, ReferenceGraph.isProcedure,
    h.row?_eq hc]

theorem Reorders.dependency?_eq
    (h : c.Reorders c') (hc : c.IsUnambiguous) :
    c'.dependency? = c.dependency? := by
  funext ownKey e
  unfold dependency? dateOf
  rw [h.kindOf?_eq hc, h.row?_eq hc, h.lastModified?_eq hc]

theorem dependency?_eq_some
    {ownKey : String} {e : DependencyEdge} {d : Dependency} (h : c.dependency? ownKey e = some d) :
    d.schema = e.toSchema ∧ d.name = e.toName ∧ d.lastModified = c.dateOf d.kind e := by
  unfold dependency? at h
  split at h
  · contradiction
  · obtain ⟨kind, -, rfl⟩ := Option.map_eq_some_iff.mp h
    exact ⟨rfl, rfl, rfl⟩

/-- Two edges to one target of one kind stand for one dependency. -/
theorem IsUnambiguous.eq_of_targetKey
    (hc : c.IsUnambiguous) {d d' : Dependency}
    (hd : d ∈ (c.graph.references p.key).filterMap (c.dependency? p.key))
    (hd' : d' ∈ (c.graph.references p.key).filterMap (c.dependency? p.key))
    (hkey : d.targetKey = d'.targetKey) :
    d = d' := by
  obtain ⟨e, he, hde⟩ := List.mem_filterMap.mp hd
  obtain ⟨f, hf, hdf⟩ := List.mem_filterMap.mp hd'
  obtain ⟨he, hefrom⟩ := mem_references_iff.mp he
  obtain ⟨hf, hffrom⟩ := mem_references_iff.mp hf
  obtain ⟨hschema, hname, hdate⟩ := dependency?_eq_some hde
  obtain ⟨hschema', hname', hdate'⟩ := dependency?_eq_some hdf
  simp only [Dependency.targetKey, toLex_inj, Prod.mk.injEq] at hkey
  obtain ⟨hrank, hschemas, hnames⟩ := hkey
  have hkind : d.kind = d'.kind := DependencyKind.rank_injective hrank
  have htarget : e.target = f.target := by
    apply hc.spelling e he f hf (hefrom.trans hffrom.symm)
    rw [Descriptor.same_iff, Descriptor.orderKey, Descriptor.orderKey, toLex_inj, Prod.mk.injEq]
    rw [hschema, hschema'] at hschemas
    rw [hname, hname'] at hnames
    exact ⟨hschemas, hnames⟩
  simp only [DependencyEdge.target, Descriptor.mk.injEq] at htarget
  have hdates : c.dateOf d.kind e = c.dateOf d'.kind f := by
    unfold dateOf DependencyEdge.toKey
    rw [hkind, htarget.1, htarget.2]
  cases d
  cases d'
  simp_all

theorem Reorders.collectedDependencies_eq
    (h : c.Reorders c') (hc : c.IsUnambiguous) (p : ProcedureRow) :
    c'.collectedDependencies p = c.collectedDependencies p := by
  unfold collectedDependencies
  rw [h.dependency?_eq hc]
  have hperm := (h.references_perm p.key).filterMap (c.dependency? p.key)
  refine (sortedDistinctBy_congr Dependency.orderedBy (fun d => hperm.mem_iff) ?_).symm
  intro d hd d' hd' hkey
  exact hc.eq_of_targetKey hd hd' hkey

end Catalog

namespace Build

variable {α β : Type} {env : Conditions} {o : Options} {w v : World}

/-! ## Steps that agree -/

/-- On worlds that match, the steps have the same outcome and leave worlds that match. -/
def Agrees (x y : Build α) : Prop :=
  ∀ w v : World, w.Matches v → (run y v).1 = (run x w).1 ∧ (run x w).2.Matches (run y v).2

theorem agrees_pure (a : α) : Agrees (pure a) (pure a) := by
  intro w v h
  exact ⟨rfl, h⟩

theorem agrees_throw (e : BuildError) : Agrees (throw e : Build α) (throw e) := by
  intro w v h
  exact ⟨rfl, h⟩

theorem Agrees.bind
    {x y : Build α} {f g : α → Build β} (hxy : Agrees x y) (hfg : ∀ a, Agrees (f a) (g a)) :
    Agrees (x >>= f) (y >>= g) := by
  intro w v h
  obtain ⟨houtcome, hmatches⟩ := hxy w v h
  rw [run_bind, run_bind]
  rcases hx : run x w with ⟨outcome, w₁⟩
  rcases hy : run y v with ⟨outcome', v₁⟩
  rw [hx, hy] at houtcome hmatches
  obtain rfl : outcome' = outcome := houtcome
  cases outcome' with
  | error e => exact ⟨rfl, hmatches⟩
  | ok a => exact hfg a w₁ v₁ hmatches

theorem agrees_get_bind
    {f g : World → Build α} (hfg : ∀ w v, w.Matches v → Agrees (f w) (g v)) :
    Agrees (get >>= f) (get >>= g) := by
  intro w v h
  rw [run_bind_of_eq_ok (run_get w), run_bind_of_eq_ok (run_get v)]
  exact hfg w v h w v h

theorem agrees_modify
    {f : World → World} (hf : ∀ w v, w.Matches v → (f w).Matches (f v)) :
    Agrees (modify f) (modify f) := by
  intro w v h
  exact ⟨rfl, hf w v h⟩

theorem agrees_checkCancelled (phase : Phase) :
    Agrees (checkCancelled phase) (checkCancelled phase) := by
  rintro w _ ⟨calls, rfl⟩
  rw [run_checkCancelled, run_checkCancelled]
  exact ⟨rfl, calls, rfl⟩

theorem agrees_ask
    (hcalls : ∀ n call, env.atCall n call = none) {c : Catalog} (call : Call)
    {answer : Catalog → α} (hanswer : answer c = answer env.catalog) :
    Agrees (ask env call answer) (ask (env.withCatalog c) call answer) := by
  rintro w _ ⟨calls, rfl⟩
  have hcalls' : ∀ n call, (env.withCatalog c).atCall n call = none := hcalls
  rw [run_ask rfl (hcalls _ _), run_ask rfl (hcalls' _ _)]
  exact ⟨congrArg Except.ok hanswer, _, rfl⟩

theorem agrees_access
    (env : Conditions) (failed : α) (act : Disk → Disk × α) :
    Agrees (access env failed act) (access env failed act) := by
  rintro w _ ⟨calls, rfl⟩
  rw [run_access_eq, run_access_eq]
  dsimp only
  split
  · exact ⟨rfl, calls, rfl⟩
  · exact ⟨rfl, calls, rfl⟩

theorem agrees_report
    (env : Conditions) (phase : Phase) (items : Nat) (notes : Option String) :
    Agrees (report env phase items notes) (report env phase items notes) := by
  apply agrees_modify
  rintro w _ ⟨calls, rfl⟩
  exact ⟨calls, rfl⟩

/-! ## Collecting -/

/-- While nobody cancels the build, the step succeeds and only asks. -/
def OnlyAsks (step : Build α) : Prop :=
  ∀ w : World, w.cancelled = false → ∃ a calls, run step w = (.ok a, { w with calls })

theorem onlyAsks_pure (a : α) : OnlyAsks (pure a) := by
  intro w _
  exact ⟨a, w.calls, rfl⟩

theorem OnlyAsks.bind
    {x : Build α} {f : α → Build β} (hx : OnlyAsks x) (hf : ∀ a, OnlyAsks (f a)) :
    OnlyAsks (x >>= f) := by
  intro w hw
  obtain ⟨a, calls, hrun⟩ := hx w hw
  obtain ⟨b, calls', hrun'⟩ := hf a { w with calls } hw
  exact ⟨b, calls', by rw [run_bind_of_eq_ok hrun, hrun']⟩

theorem onlyAsks_dateOf
    (hcalls : ∀ n call, env.atCall n call = none) (g : ReferenceGraph) (dates : Dates)
    (kind : DependencyKind) (e : DependencyEdge) :
    OnlyAsks (dateOf env g dates kind e) := by
  intro w hw
  unfold dateOf
  dsimp only
  split
  · exact onlyAsks_pure _ w hw
  · split
    · exact onlyAsks_pure _ w hw
    · have hcheck : run (checkCancelled .collect) w = (.ok (), w) := by
        rw [run_checkCancelled, hw]
        rfl
      rw [run_bind_of_eq_ok hcheck, run_bind_of_eq_ok (run_ask rfl (hcalls _ _) _)]
      exact ⟨_, _, rfl⟩

theorem onlyAsks_dependenciesAlong
    (hcalls : ∀ n call, env.atCall n call = none) (g : ReferenceGraph) (ownKey : String)
    (dates : Dates) (es : List DependencyEdge) :
    OnlyAsks (dependenciesAlong env g ownKey dates es) := by
  induction es generalizing dates with
  | nil => exact onlyAsks_pure _
  | cons e es ih =>
    rw [dependenciesAlong]
    split
    · exact ih dates
    · split
      · exact ih dates
      · apply (onlyAsks_dateOf hcalls g dates _ e).bind
        intro found
        exact (ih found.2).bind fun _ => onlyAsks_pure _

/-- The dependencies of a procedure, up to their order, whatever dates were asked for before. -/
theorem exists_run_dependenciesAlong
    (hcalls : ∀ n call, env.atCall n call = none) {dates : Dates}
    (hdates : DatesAgree env.catalog dates) (hw : w.cancelled = false) (p : ProcedureRow) :
    ∃ found dates' calls,
      run (dependenciesAlong env env.catalog.graph p.key dates
        (env.catalog.graph.references p.key)) w = (.ok (found, dates'), { w with calls }) ∧
      Dependency.canonical found = env.catalog.collectedDependencies p ∧
      DatesAgree env.catalog dates' := by
  obtain ⟨⟨found, dates'⟩, calls, hrun⟩ :=
    onlyAsks_dependenciesAlong hcalls env.catalog.graph p.key dates
      (env.catalog.graph.references p.key) w hw
  obtain ⟨rfl, hdates', -⟩ := dependenciesAlong_eq_ok hdates hrun
  exact ⟨_, dates', calls, hrun, rfl, hdates'⟩

theorem exists_run_isFile
    (env : Conditions) (path : String) (h : w.Matches v) :
    ∃ found w₁ v₁, run (isFile env path) w = (.ok found, w₁) ∧
      run (isFile env path) v = (.ok found, v₁) ∧ w₁.Matches v₁ ∧
      w₁.cancelled = w.cancelled ∧ w₁.cache = w.cache := by
  obtain ⟨calls, rfl⟩ := h
  unfold isFile access
  rw [run_bind_of_eq_ok (run_get _), run_bind_of_eq_ok (run_get _)]
  dsimp only
  split
  · exact ⟨_, _, _, rfl, rfl, ⟨calls, rfl⟩, rfl, rfl⟩
  · exact ⟨_, _, _, rfl, rfl, ⟨calls, rfl⟩, rfl, rfl⟩

/-- What is decided depends on no call, and deciding does not fail. -/
theorem exists_run_decide
    (env : Conditions) (o : Options) (p : ProcedureRow) (dependencies : List Dependency)
    (cached : Option CacheEntry) (h : w.Matches v) :
    ∃ decision w₁ v₁, run (decide env o p dependencies cached) w = (.ok decision, w₁) ∧
      run (decide env o p dependencies cached) v = (.ok decision, v₁) ∧ w₁.Matches v₁ ∧
      w₁.cancelled = w.cancelled ∧ w₁.cache = w.cache := by
  cases cached with
  | none => exact ⟨.analyze, w, v, rfl, rfl, h, rfl, rfl⟩
  | some entry =>
    simp only [decide]
    split
    · rename_i file _ _
      obtain ⟨found, w₁, v₁, hfound, hfound', hmatches, hcancelled, hcache⟩ :=
        exists_run_isFile env (Path.join o.schemaDirectory file) h
      rw [run_bind_of_eq_ok hfound, run_bind_of_eq_ok hfound']
      cases found with
      | false => exact ⟨.analyze, w₁, v₁, rfl, rfl, hmatches, hcancelled, hcache⟩
      | true => exact ⟨.reuse, w₁, v₁, rfl, rfl, hmatches, hcancelled, hcache⟩
    · exact ⟨.analyze, w, v, rfl, rfl, h, rfl, rfl⟩

theorem decide_withCatalog (env : Conditions) (c : Catalog) :
    decide (env.withCatalog c) = decide env := rfl

theorem collectOne_agrees
    {c' : Catalog} (hcalls : ∀ n call, env.atCall n call = none)
    (h : env.catalog.Reorders c') (hc : env.catalog.IsUnambiguous) (o : Options)
    {dates dates' : Dates} (hdates : DatesAgree env.catalog dates) (hdates' : DatesAgree c' dates')
    (hw : w.cancelled = false) (hmatches : w.Matches v) (d : Descriptor) (p : ProcedureRow) :
    ∃ i dates₁ dates₁' w₁ v₁,
      run (collectOne env o env.catalog.graph dates d p) w = (.ok (i, dates₁), w₁) ∧
      run (collectOne (env.withCatalog c') o c'.graph dates' d p) v = (.ok (i, dates₁'), v₁) ∧
      w₁.Matches v₁ ∧ w₁.cancelled = false ∧ DatesAgree env.catalog dates₁ ∧
      DatesAgree c' dates₁' := by
  obtain ⟨calls, rfl⟩ := hmatches
  obtain ⟨found, dates₁, asked, hfound, hcanonical, hdates₁⟩ :=
    exists_run_dependenciesAlong hcalls hdates hw p
  obtain ⟨found', dates₁', asked', hfound', hcanonical', hdates₁'⟩ :=
    exists_run_dependenciesAlong (w := { w with calls })
      (show ∀ n call, (env.withCatalog c').atCall n call = none from hcalls) hdates' hw p
  rw [Conditions.catalog_withCatalog] at hfound' hcanonical' hdates₁'
  have hsame : Dependency.canonical found' = Dependency.canonical found := by
    rw [hcanonical, hcanonical', h.collectedDependencies_eq hc p]
  obtain ⟨decision, w₁, v₁, hdecide, hdecide', hmatches₁, hcancelled, -⟩ :=
    exists_run_decide env o p (Dependency.canonical found)
      (if o.noCache then none else w.cache.get? d) (w := { w with calls := asked })
      (v := { w with calls := asked' }) ⟨asked', rfl⟩
  refine ⟨?_, dates₁, dates₁', w₁, v₁, ?_, ?_, hmatches₁, hcancelled.trans hw, hdates₁, hdates₁'⟩
  rotate_left
  · rw [collectOne, run_bind_of_eq_ok hfound]
    dsimp only
    rw [run_bind_of_eq_ok (run_get _), run_bind_of_eq_ok hdecide]
    rfl
  · rw [collectOne, run_bind_of_eq_ok hfound']
    dsimp only
    rw [run_bind_of_eq_ok (run_get _), hsame, decide_withCatalog]
    dsimp only
    rw [run_bind_of_eq_ok hdecide']
    rfl

theorem collectAll_agrees
    {c' : Catalog} (hcalls : ∀ n call, env.atCall n call = none)
    (h : env.catalog.Reorders c') (hc : env.catalog.IsUnambiguous) (o : Options)
    {dates dates' : Dates} (hdates : DatesAgree env.catalog dates) (hdates' : DatesAgree c' dates')
    (hw : w.cancelled = false) (hmatches : w.Matches v) (names : List Descriptor) :
    ∃ items w₁ v₁,
      run (collectAll env o env.catalog.graph dates names) w = (.ok items, w₁) ∧
      run (collectAll (env.withCatalog c') o c'.graph dates' names) v = (.ok items, v₁) ∧
      w₁.Matches v₁ := by
  induction names generalizing dates dates' w v with
  | nil => exact ⟨[], w, v, rfl, rfl, hmatches⟩
  | cons d names ih =>
    simp only [collectAll, h.row?_eq hc]
    cases env.catalog.graph.row? d.key with
    | none => exact ih hdates hdates' hw hmatches
    | some p =>
      obtain ⟨i, dates₁, dates₁', w₁, v₁, hone, hone', hmatches₁, hw₁, hdates₁, hdates₁'⟩ :=
        collectOne_agrees hcalls h hc o hdates hdates' hw hmatches d p
      obtain ⟨items, w₂, v₂, hrest, hrest', hmatches₂⟩ := ih hdates₁ hdates₁' hw₁ hmatches₁
      refine ⟨i :: items, w₂, v₂, ?_, ?_, hmatches₂⟩
      · rw [run_bind_of_eq_ok hone]
        dsimp only
        rw [run_bind_of_eq_ok hrest]
        rfl
      · rw [run_bind_of_eq_ok hone']
        dsimp only
        rw [run_bind_of_eq_ok hrest']
        rfl

theorem run_collect
    (hcalls : ∀ n call, env.atCall n call = none) (hw : w.cancelled = false)
    {items : List CollectionItem} {w' : World}
    (h : run (collectAll env o env.catalog.graph [] (env.catalog.selectedNames o))
      { w with calls := w.calls ++ [.listProcedures] ++ [.listDependencyEdges] } =
        (.ok items, w')) :
    run (collect env o) w = (.ok (collectionOf env.catalog o items), w') := by
  have hcheck : ∀ v : World, v.cancelled = false →
      run (checkCancelled .collect) v = (.ok (), v) := by
    intro v hv
    rw [run_checkCancelled, hv]
    rfl
  rw [collect, run_bind_of_eq_ok (hcheck w hw), run_bind_of_eq_ok (run_ask rfl (hcalls _ _) _),
    run_bind_of_eq_ok (hcheck { w with calls := w.calls ++ [.listProcedures] } hw),
    run_bind_of_eq_ok (run_ask rfl (hcalls _ _) _), run_bind_of_eq_ok (hcheck
      { w with calls := w.calls ++ [.listProcedures] ++ [.listDependencyEdges] } hw)]
  exact run_bind_of_eq_ok h _

theorem collectionOf_reordered
    {c c' : Catalog} (h : c.Reorders c') (hc : c.IsUnambiguous) (o : Options)
    (items : List CollectionItem) :
    collectionOf c' o items = collectionOf c o items := by
  have hnames := h.rows.map ProcedureRow.descriptor
  have hdistinct : (c.rows.map ProcedureRow.descriptor).Pairwise fun d e =>
      d.orderKey ≠ e.orderKey :=
    List.pairwise_map.mpr hc.procedures.pairwise_orderKey
  unfold collectionOf Catalog.missingNames
  dsimp only
  rw [NameFilter.missing_eq_of_perm hnames, NameFilter.rejected_eq_of_perm hnames hdistinct,
    h.length_accepted]

/-- The two builds ask for the same dates in different orders, and collect the same. -/
theorem agrees_collect
    {c' : Catalog} (hcalls : ∀ n call, env.atCall n call = none)
    (h : env.catalog.Reorders c') (hc : env.catalog.IsUnambiguous) (o : Options) :
    Agrees (collect env o) (collect (env.withCatalog c') o) := by
  rintro w _ ⟨calls, rfl⟩
  cases hw : w.cancelled with
  | true =>
    unfold collect
    rw [run_bind, run_bind, run_checkCancelled, run_checkCancelled]
    simp only [hw, if_true]
    exact ⟨trivial, calls, by rw [hw]⟩
  | false =>
    obtain ⟨items, w₁, v₁, hall, hall', hmatches⟩ := collectAll_agrees hcalls h hc o
      (datesAgree_nil _) (datesAgree_nil _)
      (w := { w with calls := w.calls ++ [.listProcedures] ++ [.listDependencyEdges] })
      (v := { w with calls := calls ++ [.listProcedures] ++ [.listDependencyEdges] }) hw ⟨_, rfl⟩
      (env.catalog.selectedNames o)
    rw [← h.selectedNames_eq hc.procedures o] at hall'
    have hcalls' : ∀ n call, (env.withCatalog c').atCall n call = none := hcalls
    rw [run_collect hcalls hw hall]
    rw [hw] at hall'
    rw [run_collect (w := { w with calls, cancelled := false }) hcalls' rfl hall']
    exact ⟨congrArg Except.ok (collectionOf_reordered h hc o items), hmatches⟩

/-! ## The later phases -/

theorem agrees_inputsOf
    {c' : Catalog} (hcalls : ∀ n call, env.atCall n call = none)
    (hdefinition : c'.definition? = env.catalog.definition?) (items : List CollectionItem) :
    Agrees (inputsOf env items) (inputsOf (env.withCatalog c') items) := by
  induction items with
  | nil => exact agrees_pure _
  | cons i items ih =>
    rw [inputsOf, inputsOf]
    apply (agrees_checkCancelled .analyze).bind
    intro _
    apply (agrees_ask hcalls _ (by rw [hdefinition])).bind
    intro definition
    exact ih.bind fun _ => agrees_pure _

theorem agrees_analyzePhase
    {c' : Catalog} (hcalls : ∀ n call, env.atCall n call = none)
    (hdefinition : c'.definition? = env.catalog.definition?) (found : Collection) :
    Agrees (analyzePhase env found) (analyzePhase (env.withCatalog c') found) := by
  apply (agrees_inputsOf hcalls hdefinition _).bind
  intro inputs
  apply agrees_get_bind
  rintro w _ ⟨calls, rfl⟩
  dsimp only
  apply Agrees.bind
  · cases AnalysisInput.analyzeAll w.cancelled inputs with
    | error e => exact agrees_throw e
    | ok as => exact agrees_pure as
  · intro results
    apply (agrees_report env .analyze _ _).bind
    intro _
    exact (agrees_checkCancelled .analyze).bind fun _ => agrees_pure _

theorem agrees_tableColumns
    {c' : Catalog} (hcalls : ∀ n call, env.atCall n call = none)
    (hcolumns : c'.columns? = env.catalog.columns?) (schema table : String) :
    Agrees (tableColumns env schema table) (tableColumns (env.withCatalog c') schema table) := by
  apply agrees_get_bind
  rintro w _ ⟨calls, rfl⟩
  dsimp only
  split
  · exact agrees_pure _
  · apply (agrees_ask hcalls _ (by rw [hcolumns])).bind
    intro columns
    refine (agrees_modify ?_).bind fun _ => agrees_pure columns
    rintro w _ ⟨calls, rfl⟩
    exact ⟨calls, rfl⟩

theorem isSimulation_agrees :
    Enrichment.IsSimulation (m := Build) (n := Build) fun _ x y => Agrees x y where
  pure := agrees_pure
  bind := Agrees.bind

theorem agrees_enrichAll
    {c' : Catalog} (hcalls : ∀ n call, env.atCall n call = none)
    (hcolumns : c'.columns? = env.catalog.columns?) (as : List Analysis) :
    Agrees (enrichAll env as) (enrichAll (env.withCatalog c') as) := by
  induction as with
  | nil => exact agrees_pure _
  | cons a as ih =>
    apply (isSimulation_agrees.enrich a fun b _ => agrees_tableColumns hcalls hcolumns _ _).bind
    intro one
    exact ih.bind fun _ => agrees_pure _

theorem agrees_writeEach
    (env : Conditions) (c' : Catalog) (directory : String) (as : List Analysis) :
    Agrees (writeEach env directory as) (writeEach (env.withCatalog c') directory as) := by
  induction as with
  | nil => exact agrees_pure _
  | cons a as ih =>
    apply (agrees_access env _ _).bind
    intro content
    split
    · exact ih.bind fun _ => agrees_pure _
    · apply (agrees_access env _ _).bind
      intro replaced
      split
      · exact ih.bind fun _ => agrees_pure _
      · exact agrees_throw _

theorem agrees_writePhase
    {c' : Catalog} (hcalls : ∀ n call, env.atCall n call = none)
    (hcolumns : c'.columns? = env.catalog.columns?) (o : Options) (results : List Analysis) :
    Agrees (writePhase env o results) (writePhase (env.withCatalog c') o results) := by
  apply (agrees_enrichAll hcalls hcolumns results).bind
  intro enriched
  apply Agrees.bind
  · apply (agrees_access env _ _).bind
    intro made
    split
    · exact agrees_writeEach env c' _ _
    · exact agrees_throw _
  · intro written
    apply (agrees_report env .write _ _).bind
    intro _
    exact (agrees_checkCancelled .write).bind fun _ => agrees_pure _

theorem agrees_flushCache
    (env : Conditions) (written : WrittenSnapshots) :
    Agrees (flushCache env written) (flushCache env written) := by
  apply agrees_get_bind
  rintro w _ ⟨calls, rfl⟩
  dsimp only
  apply Agrees.bind
  · unfold Cache.flush
    split
    · exact agrees_pure _
    · split
      · exact agrees_pure _
      · apply (agrees_access env _ _).bind
        intro stored
        split
        · exact agrees_pure _
        · exact agrees_pure _
  · intro flushed
    refine (agrees_modify ?_).bind fun _ => agrees_pure _
    rintro w _ ⟨calls, rfl⟩
    exact ⟨calls, rfl⟩

theorem agrees_fingerprint
    (env : Conditions) (path : String) (digest : List (String × ByteArray) → String) :
    Agrees (Build.fingerprint env path digest) (Build.fingerprint env path digest) := by
  apply (agrees_access env _ _).bind
  intro files
  split
  · exact agrees_pure _
  · exact agrees_pure _
  · exact agrees_throw _

theorem agrees_selectPhase
    {c' : Catalog} (hcalls : ∀ n call, env.atCall n call = none)
    (h : env.catalog.Reorders c') (hc : env.catalog.IsUnambiguous) (o : Options) :
    Agrees (selectPhase env o) (selectPhase (env.withCatalog c') o) := by
  apply Agrees.bind
  · apply (agrees_access env _ _).bind
    intro content
    apply agrees_modify
    rintro w _ ⟨calls, rfl⟩
    exact ⟨calls, rfl⟩
  · intro _
    apply (agrees_collect hcalls h hc o).bind
    intro found
    apply (agrees_report env .collect _ _).bind
    intro _
    exact (agrees_checkCancelled .collect).bind fun _ => agrees_pure found

theorem agrees_reusePhase
    (env : Conditions) (found : Collection) :
    Agrees (reusePhase env found) (reusePhase env found) := by
  apply Agrees.bind
  · apply agrees_modify
    rintro w _ ⟨calls, rfl⟩
    exact ⟨calls, rfl⟩
  · intro _
    exact (agrees_report env .recordReuse _ _).bind fun _ => agrees_checkCancelled .recordReuse

theorem agrees_snapshots
    {c' : Catalog} (hcalls : ∀ n call, env.atCall n call = none)
    (h : env.catalog.Reorders c') (hc : env.catalog.IsUnambiguous) (o : Options) :
    Agrees (snapshots env o) (snapshots (env.withCatalog c') o) := by
  apply Agrees.bind
  · apply (agrees_selectPhase hcalls h hc o).bind
    intro found
    apply (agrees_reusePhase env found).bind
    intro _
    apply (agrees_analyzePhase hcalls (h.definition?_eq hc) found).bind
    intro results
    apply (agrees_writePhase hcalls (h.columns?_eq hc) o results).bind
    intro written
    apply (agrees_flushCache env written.1).bind
    intro flushed
    exact (agrees_fingerprint env _ _).bind fun _ => agrees_pure _
  · intro b
    exact agrees_pure _

/-- A catalog that answers every call may list its rows in any order: a build has the same outcome,
reports the same phases, and leaves the same disk and cache.  Only the calls may come in another
order. -/
theorem snapshots_reordered
    (env : Conditions) (hcalls : ∀ n call, env.atCall n call = none)
    (hc : env.catalog.IsUnambiguous) {c' : Catalog} (h : env.catalog.Reorders c') (o : Options)
    (w : World) :
    ∃ calls, run (snapshots (env.withCatalog c') o) w =
      ((run (snapshots env o) w).1, { (run (snapshots env o) w).2 with calls }) := by
  obtain ⟨houtcome, calls, hworld⟩ := agrees_snapshots hcalls h hc o w w ⟨w.calls, rfl⟩
  exact ⟨calls, Prod.ext houtcome hworld⟩

end Build

/-! ## A sample -/

def Catalog.reversed (c : Catalog) : Catalog where
  procedures := c.procedures.reverse
  dependencies := c.dependencies.reverse
  objects := c.objects.reverse
  tables := c.tables.reverse

theorem Catalog.reorders_reversed (c : Catalog) : c.Reorders c.reversed where
  procedures := (List.reverse_perm _).symm
  dependencies := (List.reverse_perm _).symm
  objects := (List.reverse_perm _).symm
  tables := (List.reverse_perm _).symm

theorem Catalog.isUnambiguous_sample : Catalog.sample.IsUnambiguous where
  procedures := hasDistinctProcedures_sample
  objects := by decide +kernel
  tables := by decide +kernel
  spelling := by decide +kernel

/-- The sample project has the same snapshots when the rows of its catalog are reversed. -/
theorem Build.snapshots_reversed_sample :
    (∀ n call, (Conditions.calm .sample ⟨0, 0⟩).atCall n call = none) ∧
    Catalog.sample.IsUnambiguous ∧ Catalog.sample.Reorders Catalog.sample.reversed ∧
    Catalog.sample.reversed ≠ Catalog.sample ∧
    ∃ r w calls, run (snapshots (.calm .sample ⟨0, 0⟩) .sample) .sample = (.ok r, w) ∧
      run (snapshots (.calm Catalog.sample.reversed ⟨0, 0⟩) .sample) .sample =
        (.ok r, { w with calls }) := by
  have hcalls : ∀ n call, (Conditions.calm .sample ⟨0, 0⟩).atCall n call = none := fun _ _ => rfl
  refine ⟨hcalls, Catalog.isUnambiguous_sample, Catalog.reorders_reversed _, by decide +kernel, ?_⟩
  obtain ⟨b, w, hrun, -⟩ := exists_complete_sample (c := .sample) rfl ⟨0, 0⟩ rfl (w := .sample) rfl
    (.refl _)
  have hreport : run (snapshots (.calm .sample ⟨0, 0⟩) .sample) .sample = (.ok b.report, w) := by
    rw [snapshots, run_bind_of_eq_ok hrun]
    rfl
  obtain ⟨calls, hreversed⟩ := snapshots_reordered (.calm .sample ⟨0, 0⟩) hcalls
    Catalog.isUnambiguous_sample (Catalog.reorders_reversed _) .sample .sample
  rw [hreport] at hreversed
  exact ⟨b.report, w, calls, hreport, hreversed⟩

end SqlSnapshot
