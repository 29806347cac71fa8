import SqlSnapshot.Proofs.Build.Recorded

/-!
# Catalogs over time

The snapshot of a procedure is a function of its catalog.  In the course of time the catalogs of one
database agree on a procedure as long as neither its date nor its dependencies change; dates do not
go back, and different procedures have files of different names.
-/

namespace SqlSnapshot

/-! ## Snapshots as the catalog has them -/

namespace Catalog

variable {c c' : Catalog} {p q : ProcedureRow}

/-- The item of a procedure that is to be analyzed. -/
def itemOf (c : Catalog) (p : ProcedureRow) : CollectionItem where
  descriptor := p.descriptor
  decision := .analyze
  lastModified := some p.modified
  dependencies := c.collectedDependencies p

/-- What the definition of a procedure says, before tables are looked up. -/
def definitionAnalysis (c : Catalog) (p : ProcedureRow) : Analysis :=
  (AnalysisInput.mk (c.itemOf p) (c.definition? p.descriptor)).analyze

/-- The document of a procedure. -/
def snapshotBytes (c : Catalog) (p : ProcedureRow) : ByteArray :=
  (Snapshot.ofAnalysis ((c.itemOf p).analysis c)).canonicalBytes

/-- The catalogs give the procedure the same spelling, definition and columns of the tables that the
definition reads. -/
structure AgreesOn (c c' : Catalog) (p q : ProcedureRow) : Prop where
  descriptor : p.descriptor = q.descriptor
  definition : c.definition? p.descriptor = c'.definition? q.descriptor
  columns : ∀ b ∈ (c.definitionAnalysis p).bindings,
    c.columns? b.schema b.table = c'.columns? b.schema b.table

theorem AgreesOn.snapshotBytes_eq
    (h : AgreesOn c c' p q) (hmodified : p.modified = q.modified)
    (hdependencies : c.collectedDependencies p = c'.collectedDependencies q) :
    c.snapshotBytes p = c'.snapshotBytes q := by
  have hitem : c.itemOf p = c'.itemOf q := by
    rw [itemOf, itemOf, h.descriptor, hmodified, hdependencies]
  have hanalysis : (c.itemOf p).analysis c = (c'.itemOf q).analysis c' := by
    refine (Analysis.enriched_congr h.columns).trans ?_
    rw [definitionAnalysis, hitem, h.definition]
    rfl
  rw [snapshotBytes, snapshotBytes, hanalysis]

end Catalog

theorem CollectionItem.Describes.snapshotBytes_eq
    {env : Conditions} {o : Options} {cached : Option CacheEntry} {d : Disk} {p : ProcedureRow}
    {i : CollectionItem} (h : i.Describes env o cached d p) :
    (Snapshot.ofAnalysis (i.analysis env.catalog)).canonicalBytes =
      env.catalog.snapshotBytes p := by
  have hanalysis : i.analysis env.catalog = (env.catalog.itemOf p).analysis env.catalog := by
    simp only [analysis, AnalysisInput.analyze, Catalog.itemOf, h.descriptor, h.lastModified,
      h.dependencies]
  rw [hanalysis, Catalog.snapshotBytes]

/-! ## Timelines -/

/-- Different procedures of the catalog have files of different names. -/
def Catalog.NamesFiles (c : Catalog) : Prop :=
  ∀ p ∈ c.rows, ∀ q ∈ c.rows, Snapshot.fileName p.descriptor = Snapshot.fileName q.descriptor →
    p.descriptor.same q.descriptor = true

/-- The catalogs of one database, the latest first. -/
structure Catalog.IsTimeline (cs : List Catalog) : Prop where
  distinct : ∀ c ∈ cs, c.HasDistinctProcedures
  dated : ∀ c ∈ cs, c.IsDated
  /-- Dates do not go back. -/
  forward : cs.Pairwise fun later earlier => ∀ p ∈ later.rows, ∀ q ∈ earlier.rows,
    p.descriptor.same q.descriptor = true → p.modified.before q.modified = false
  /-- What a procedure is depends on its date and its dependencies. -/
  determined : ∀ c ∈ cs, ∀ c' ∈ cs, ∀ p ∈ c.rows, ∀ q ∈ c'.rows,
    p.descriptor.same q.descriptor = true → p.modified = q.modified →
      c.collectedDependencies p = c'.collectedDependencies q → c.AgreesOn c' p q
  /-- Different procedures have files of different names. -/
  named : ∀ c ∈ cs, ∀ c' ∈ cs, ∀ p ∈ c.rows, ∀ q ∈ c'.rows,
    Snapshot.fileName p.descriptor = Snapshot.fileName q.descriptor →
      p.descriptor.same q.descriptor = true

theorem Timestamp.eq_of_not_before
    {s t : Timestamp} (hst : s.before t = false) (hts : t.before s = false) :
    s = t := by
  simp only [before, Bool.or_eq_false_iff, Bool.and_eq_false_imp, decide_eq_false_iff_not,
    beq_iff_eq] at hst hts
  obtain ⟨hseconds, hnanos⟩ := hst
  obtain ⟨hseconds', hnanos'⟩ := hts
  have hsame : s.seconds = t.seconds := by omega
  have hfraction : s.nanos = t.nanos := by
    have h₁ := hnanos hsame
    have h₂ := hnanos' hsame.symm
    omega
  cases s
  cases t
  rw [mk.injEq]
  exact ⟨hsame, hfraction⟩

theorem Catalog.IsTimeline.namesFiles
    {cs : List Catalog} (h : IsTimeline cs) (c : Catalog) (hc : c ∈ cs) :
    c.NamesFiles :=
  fun p hp q hq => h.named c hc c hc p hp q hq

theorem Catalog.IsTimeline.tail
    {c : Catalog} {cs : List Catalog} (h : IsTimeline (c :: cs)) :
    IsTimeline cs where
  distinct := fun a ha => h.distinct a (List.mem_cons_of_mem c ha)
  dated := fun a ha => h.dated a (List.mem_cons_of_mem c ha)
  forward := (List.pairwise_cons.mp h.forward).2
  determined := fun a ha b hb =>
    h.determined a (List.mem_cons_of_mem c ha) b (List.mem_cons_of_mem c hb)
  named := fun a ha b hb => h.named a (List.mem_cons_of_mem c ha) b (List.mem_cons_of_mem c hb)

/-- A row that is not younger than a past one of the same procedure and has its dependencies is the
past one still. -/
theorem Catalog.IsTimeline.unchanged
    {c c' : Catalog} {cs : List Catalog} {p q : ProcedureRow} (h : IsTimeline (c :: cs))
    (hc' : c' ∈ cs) (hp : p ∈ c.rows) (hq : q ∈ c'.rows)
    (hsame : p.descriptor.same q.descriptor = true) (hdate : q.modified.before p.modified = false)
    (hdependencies : c.collectedDependencies p = c'.collectedDependencies q) :
    p.descriptor = q.descriptor ∧ c.snapshotBytes p = c'.snapshotBytes q := by
  have hforward := (List.pairwise_cons.mp h.forward).1 c' hc' p hp q hq hsame
  have hmodified := Timestamp.eq_of_not_before hforward hdate
  have hagrees := h.determined c List.mem_cons_self c' (List.mem_cons_of_mem c hc') p hp q hq hsame
    hmodified hdependencies
  exact ⟨hagrees.descriptor, hagrees.snapshotBytes_eq hmodified hdependencies⟩

theorem Catalog.isTimeline_sample : IsTimeline [sampleLater, sample] where
  distinct := by
    intro c hc
    rcases List.mem_pair.mp hc with rfl | rfl
    · exact hasDistinctProcedures_sampleLater
    · exact hasDistinctProcedures_sample
  dated := by
    intro c hc
    rcases List.mem_pair.mp hc with rfl | rfl
    · exact isDated_sampleLater
    · exact isDated_sample
  forward := by decide +kernel
  determined := by
    intro c hc c' hc' p hp q hq hsame hmodified _
    have hrows : ∀ c ∈ [sampleLater, sample], ∀ c' ∈ [sampleLater, sample], ∀ p ∈ c.rows,
        ∀ q ∈ c'.rows, p.descriptor.same q.descriptor = true → p.modified = q.modified →
          p.descriptor = q.descriptor ∧
            c.definition? p.descriptor = c'.definition? q.descriptor := by
      decide +kernel
    have htables : ∀ c ∈ [sampleLater, sample], c.tables = sample.tables := by decide +kernel
    obtain ⟨hdescriptor, hdefinition⟩ := hrows c hc c' hc' p hp q hq hsame hmodified
    refine ⟨hdescriptor, hdefinition, ?_⟩
    intro b _
    rw [columns?, columns?, htables c hc, htables c' hc']
  named := by decide +kernel

end SqlSnapshot
