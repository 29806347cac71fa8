import Mathlib.Data.List.Forall2
import SqlSnapshot.Build.Collect
import SqlSnapshot.Proofs.Build.Steps
import SqlSnapshot.Proofs.Collection.Closure

/-!
# What a build collects

The dependencies of a procedure are a function of the catalog: dates that were asked for before are
those that the catalog would give again.  A collection that succeeds has one item for each row that
the catalog selects, in their order, whatever fails besides; and in calm conditions it succeeds.
-/

namespace SqlSnapshot

namespace Catalog

/-- The modify date of what an edge refers to. -/
def dateOf (c : Catalog) (kind : DependencyKind) (e : DependencyEdge) : Option Timestamp :=
  match if kind = .procedure then c.graph.row? e.toKey else none with
  | some row => some row.modified
  | none => c.lastModified? kind e.toSchema e.toName

/-- The dependency that an edge of a procedure stands for. -/
def dependency? (c : Catalog) (ownKey : String) (e : DependencyEdge) : Option Dependency :=
  if e.toKey == ownKey then none
  else (Build.kindOf? c.graph e).map fun kind => ⟨kind, e.toSchema, e.toName, c.dateOf kind e⟩

/-- The dependencies of a procedure as every build collects them. -/
def collectedDependencies (c : Catalog) (p : ProcedureRow) : List Dependency :=
  Dependency.canonical ((c.graph.references p.key).filterMap (c.dependency? p.key))

/-- What the catalog alone says about a collection: the names that were asked for in vain. -/
def missingNames (c : Catalog) (o : Options) : List Descriptor :=
  (NameFilter.ofOptions o).missing (c.rows.map (·.descriptor))

theorem lastModified?_congr
    (c : Catalog) (kind : DependencyKind) {schema name schema' name' : String}
    (h : objectKey schema name = objectKey schema' name') :
    c.lastModified? kind schema name = c.lastModified? kind schema' name' := by
  simp only [lastModified?, h]

end Catalog

/-- The entry describes the procedure, and its snapshot is there. -/
def CacheEntry.Holds (e : CacheEntry) (o : Options) (d : Disk) (p : ProcedureRow)
    (dependencies : List Dependency) : Prop :=
  e.describes p dependencies = true ∧
    ∃ file, e.snapshotFile = some file ∧ d.isFile (Path.join o.schemaDirectory file) = true

theorem CacheEntry.holds_iff
    {e : CacheEntry} {o : Options} {d : Disk} {p : ProcedureRow} {dependencies : List Dependency} :
    e.Holds o d p dependencies ↔
      e.lastModified.before p.modified = false ∧
        Dependency.canonical e.dependencies = dependencies ∧
        ∃ file, e.snapshotFile = some file ∧
          d.isFile (Path.join o.schemaDirectory file) = true := by
  simp only [Holds, describes, Bool.and_eq_true, Bool.not_eq_true', beq_iff_eq, and_assoc]

/-- The entry that a build looks up. -/
def Cache.lookup? (c : Cache) (o : Options) (d : Descriptor) : Option CacheEntry :=
  if o.noCache then none else c.get? d

theorem Cache.lookup?_load
    {o : Options} (h : o.noCache = false) (content : Option ByteArray) (d : Descriptor) :
    (Cache.load o content).lookup? o d = (CacheEntries.ofFile content).get? d := by
  simp [Cache.lookup?, Cache.get?, Cache.load, h]

/-- The item of a selected row, given its cache entry and the disk at the time. -/
structure CollectionItem.Describes (env : Conditions) (o : Options) (cached : Option CacheEntry)
    (d : Disk) (p : ProcedureRow) (i : CollectionItem) : Prop where
  descriptor : i.descriptor = p.descriptor
  lastModified : i.lastModified = some p.modified
  dependencies : i.dependencies = env.catalog.collectedDependencies p
  cachedHash : i.cachedHash = cached.bind (·.snapshotHash)
  cachedFile : i.cachedFile = cached.bind (·.snapshotFile)
  chosen : i.decision = .analyze ∨ i.decision = .reuse
  reused : i.decision = .reuse → ∃ e, cached = some e ∧ e.Holds o d p i.dependencies
  analyzed : (∀ n, env.diskFails n = false) → i.decision = .analyze →
    ∀ e, cached = some e → ¬ e.Holds o d p i.dependencies

namespace Build

variable {env : Conditions} {o : Options} {w w' : World}

def DatesAgree (c : Catalog) (dates : Dates) : Prop :=
  ∀ kind schema name date, dates.lookup (kind, objectKey schema name) = some date →
    date = c.lastModified? kind schema name

theorem datesAgree_nil (c : Catalog) : DatesAgree c [] := by
  intro kind schema name date h
  simp at h

theorem DatesAgree.cons
    {c : Catalog} {dates : Dates} (h : DatesAgree c dates) (kind : DependencyKind)
    (schema name : String) :
    DatesAgree c (((kind, objectKey schema name), c.lastModified? kind schema name) :: dates) := by
  intro kind' schema' name' date hlookup
  rw [List.lookup_cons] at hlookup
  split at hlookup
  · rename_i heq
    simp only [beq_iff_eq, Prod.mk.injEq] at heq
    obtain ⟨rfl, hkey⟩ := heq
    rw [← Option.some.inj hlookup]
    exact c.lastModified?_congr kind' hkey.symm
  · exact h _ _ _ _ hlookup

/-! ## Dependencies -/

abbrev Collects (w w' : World) : Prop :=
  World.Asks (fun call => call.readsContent = false) w w'

theorem dateOf_eq_ok
    {dates dates' : Dates} {kind : DependencyKind} {e : DependencyEdge} {date : Option Timestamp}
    (hdates : DatesAgree env.catalog dates)
    (h : run (dateOf env env.catalog.graph dates kind e) w = (.ok (date, dates'), w')) :
    date = env.catalog.dateOf kind e ∧ DatesAgree env.catalog dates' ∧ Collects w w' := by
  unfold dateOf at h
  dsimp only at h
  split at h
  · rename_i row hrow
    have hdate : env.catalog.dateOf kind e = some row.modified := by
      simp only [Catalog.dateOf, hrow]
    cases h
    exact ⟨hdate.symm, hdates, .refl w⟩
  · rename_i hrow
    have hdate :
        env.catalog.dateOf kind e = env.catalog.lastModified? kind e.toSchema e.toName := by
      simp only [Catalog.dateOf, hrow]
    rw [hdate]
    split at h
    · rename_i known hlookup
      cases h
      exact ⟨hdates _ _ _ _ hlookup, hdates, .refl w⟩
    · obtain ⟨answer, w₁, hask, hrest⟩ := run_bind_eq_ok.mp (eq_ok_of_checkCancelled h)
      obtain ⟨rfl, -⟩ := ask_eq_ok hask
      cases hrest
      exact ⟨rfl, hdates.cons kind e.toSchema e.toName, asks_of_ask rfl hask⟩

theorem dependenciesAlong_eq_ok
    {ownKey : String} {dates dates' : Dates} {es : List DependencyEdge} {ds : List Dependency}
    (hdates : DatesAgree env.catalog dates)
    (h : run (dependenciesAlong env env.catalog.graph ownKey dates es) w =
      (.ok (ds, dates'), w')) :
    ds = es.filterMap (env.catalog.dependency? ownKey) ∧ DatesAgree env.catalog dates' ∧
      Collects w w' := by
  induction es generalizing dates dates' ds w w' with
  | nil =>
    cases h
    exact ⟨rfl, hdates, .refl _⟩
  | cons e es ih =>
    rw [dependenciesAlong] at h
    by_cases hown : (e.toKey == ownKey) = true
    · simp only [hown, if_true] at h
      have hnone : env.catalog.dependency? ownKey e = none := by
        simp [Catalog.dependency?, hown]
      rw [List.filterMap_cons_none hnone]
      exact ih hdates h
    · simp only [hown] at h
      cases hkind : kindOf? env.catalog.graph e with
      | none =>
        simp only [hkind] at h
        have hnone : env.catalog.dependency? ownKey e = none := by
          simp [Catalog.dependency?, hkind]
        rw [List.filterMap_cons_none hnone]
        exact ih hdates h
      | some kind =>
        simp only [hkind] at h
        obtain ⟨⟨date, dates₁⟩, w₁, hdate, hrest⟩ := run_bind_eq_ok.mp h
        obtain ⟨rfl, hdates₁, hasks₁⟩ := dateOf_eq_ok hdates hdate
        obtain ⟨⟨others, dates₂⟩, w₂, hothers, hrest⟩ := run_bind_eq_ok.mp hrest
        obtain ⟨rfl, hdates₂, hasks₂⟩ := ih hdates₁ hothers
        cases hrest
        have hsome : env.catalog.dependency? ownKey e =
            some ⟨kind, e.toSchema, e.toName, env.catalog.dateOf kind e⟩ := by
          simp [Catalog.dependency?, hown, hkind]
        rw [List.filterMap_cons_some hsome]
        exact ⟨rfl, hdates₂, hasks₁.trans hasks₂⟩

/-! ## Items -/

theorem decide_eq_ok
    {p : ProcedureRow} {dependencies : List Dependency} {cached : Option CacheEntry}
    {decision : Decision}
    (h : run (decide env o p dependencies cached) w = (.ok decision, w')) :
    (decision = .analyze ∨ decision = .reuse) ∧
      (decision = .reuse → ∃ e, cached = some e ∧ e.Holds o w.disk p dependencies) ∧
      ((∀ n, env.diskFails n = false) → decision = .analyze →
        ∀ e, cached = some e → ¬ e.Holds o w.disk p dependencies) ∧
      Collects w w' := by
  cases cached with
  | none =>
    cases h
    exact ⟨Or.inl rfl, by simp, by simp, .refl _⟩
  | some e =>
    simp only [decide] at h
    split at h
    · rename_i file hdescribes hfile
      obtain ⟨found, w₁, hfound, hrest⟩ := run_bind_eq_ok.mp h
      obtain ⟨houtcome, hasks⟩ := isFile_eq_ok _ hfound
      cases found with
      | false =>
        cases hrest
        refine ⟨Or.inl rfl, by simp, ?_, hasks⟩
        rintro hcalm - e' heq ⟨-, file', hfile', hthere⟩
        rw [← Option.some.inj heq, hfile, Option.some.injEq] at hfile'
        rw [hfile'] at houtcome
        rcases houtcome with ⟨-, n, hfails⟩ | hmissing
        · rw [hcalm n] at hfails
          contradiction
        · rw [hthere] at hmissing
          contradiction
      | true =>
        cases hrest
        refine ⟨Or.inr rfl, fun _ => ⟨e, rfl, hdescribes, file, hfile, ?_⟩, by simp, hasks⟩
        rcases houtcome with ⟨hfalse, -⟩ | hthere
        · contradiction
        · exact hthere.symm
    · rename_i hnot
      cases h
      refine ⟨Or.inl rfl, by simp, ?_, .refl _⟩
      rintro - - e' heq ⟨hdescribes, file, hfile, -⟩
      rw [← Option.some.inj heq] at hdescribes hfile
      exact hnot file hdescribes hfile

theorem collectOne_eq_ok
    {dates dates' : Dates} {p : ProcedureRow} {i : CollectionItem}
    (hdates : DatesAgree env.catalog dates)
    (h : run (collectOne env o env.catalog.graph dates p.descriptor p) w =
      (.ok (i, dates'), w')) :
    i.Describes env o (w.cache.lookup? o p.descriptor) w.disk p ∧
      DatesAgree env.catalog dates' ∧ Collects w w' := by
  obtain ⟨⟨found, dates₁⟩, w₁, hfound, hrest⟩ := run_bind_eq_ok.mp h
  obtain ⟨rfl, hdates₁, hasks₁⟩ := dependenciesAlong_eq_ok hdates hfound
  rw [run_bind_of_eq_ok (run_get w₁)] at hrest
  obtain ⟨decision, w₂, hdecision, hrest⟩ := run_bind_eq_ok.mp hrest
  obtain ⟨hchosen, hreused, hanalyzed, hasks₂⟩ := decide_eq_ok hdecision
  rw [hasks₁.cache, hasks₁.disk] at hreused hanalyzed
  cases hrest
  refine ⟨⟨rfl, rfl, rfl, ?_, ?_, hchosen, hreused, hanalyzed⟩, hdates₁, hasks₁.trans hasks₂⟩
  · rw [hasks₁.cache]
    rfl
  · rw [hasks₁.cache]
    rfl

theorem collectAll_eq_ok
    {dates : Dates} {names : List Descriptor} {items : List CollectionItem}
    (hdates : DatesAgree env.catalog dates)
    (hnames : ∀ d ∈ names, ∃ row, env.catalog.graph.row? d.key = some row ∧ row.descriptor = d)
    (h : run (collectAll env o env.catalog.graph dates names) w = (.ok items, w')) :
    List.Forall₂
        (fun p i => i.Describes env o (w.cache.lookup? o p.descriptor) w.disk p)
        (names.filterMap fun d => env.catalog.graph.row? d.key) items ∧
      Collects w w' := by
  induction names generalizing dates items w w' with
  | nil =>
    cases h
    exact ⟨.nil, .refl _⟩
  | cons d names ih =>
    obtain ⟨p, hrow, rfl⟩ := hnames d List.mem_cons_self
    have hothers := fun e he => hnames e (List.mem_cons_of_mem _ he)
    simp only [collectAll, hrow] at h
    obtain ⟨⟨i, dates₁⟩, w₁, hone, hrest⟩ := run_bind_eq_ok.mp h
    obtain ⟨hdescribes, hdates₁, hasks₁⟩ := collectOne_eq_ok hdates hone
    obtain ⟨is, w₂, hall, hrest⟩ := run_bind_eq_ok.mp hrest
    obtain ⟨hforall, hasks₂⟩ := ih hdates₁ hothers hall
    cases hrest
    rw [hasks₁.cache, hasks₁.disk] at hforall
    simp only [List.filterMap_cons, hrow]
    exact ⟨.cons hdescribes hforall, hasks₁.trans hasks₂⟩

/-- The collection of a catalog, given the items of its selected procedures. -/
def collectionOf (c : Catalog) (o : Options) (items : List CollectionItem) : Collection :=
  let names := c.rows.map (·.descriptor)
  { items := items ++ (c.missingNames o).map .skipped
    seedCount := (c.accepted o).length
    issues := (c.missingNames o).map (fun d => .procedureNotFound d.display) ++
      ((NameFilter.ofOptions o).rejected names).map fun d => .procedureFilteredBySchema d.display }

theorem collect_eq_collectionOf
    {found : Collection} (h : run (collect env o) w = (.ok found, w')) :
    ∃ items, found = collectionOf env.catalog o items ∧
      List.Forall₂
        (fun p i => i.Describes env o (w.cache.lookup? o p.descriptor) w.disk p)
        (env.catalog.selectedRows o) items ∧
      Collects w w' := by
  obtain ⟨rows, w₁, hrows, hrest⟩ := run_bind_eq_ok.mp (eq_ok_of_checkCancelled h)
  obtain ⟨rfl, -⟩ := ask_eq_ok hrows
  obtain ⟨edges, w₂, hedges, hrest⟩ := run_bind_eq_ok.mp (eq_ok_of_checkCancelled hrest)
  obtain ⟨rfl, -⟩ := ask_eq_ok hedges
  obtain ⟨items, w₃, hitems, hrest⟩ := run_bind_eq_ok.mp (eq_ok_of_checkCancelled hrest)
  have hasks₁ : Collects w w₁ := asks_of_ask rfl hrows
  have hasks₂ : Collects w₁ w₂ := asks_of_ask rfl hedges
  obtain ⟨hforall, hasks₃⟩ := collectAll_eq_ok (datesAgree_nil env.catalog)
    (fun d hd => by
      obtain ⟨row, hrow, hname, -⟩ := Catalog.exists_row_of_mem_selectedNames (o := o) hd
      exact ⟨row, hrow, hname⟩) hitems
  cases hrest
  rw [hasks₂.cache, hasks₁.cache, hasks₂.disk, hasks₁.disk] at hforall
  exact ⟨items, rfl, hforall, (hasks₁.trans hasks₂).trans hasks₃⟩

theorem collect_eq_ok
    {found : Collection} (h : run (collect env o) w = (.ok found, w')) :
    ∃ items, found.items = items ++ ((NameFilter.ofOptions o).missing
          (env.catalog.rows.map (·.descriptor))).map .skipped ∧
      List.Forall₂
        (fun p i => i.Describes env o (w.cache.lookup? o p.descriptor) w.disk p)
        (env.catalog.selectedRows o) items ∧
      Collects w w' := by
  obtain ⟨items, rfl, hforall, hasks⟩ := collect_eq_collectionOf h
  exact ⟨items, rfl, hforall, hasks⟩

/-! ## Success -/

theorem succeeds_collect
    (hcalm : env.Calm) (o : Options) :
    Succeeds (collect env o) :=
  (isInterruptible_of_calm hcalm).collect (fun _ _ => trivial) o

end Build

end SqlSnapshot
