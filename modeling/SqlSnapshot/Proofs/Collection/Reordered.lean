import SqlSnapshot.Proofs.Collection.Closure

/-!
# The order of the rows of a catalog

A catalog is read through look-ups and through lists in a canonical form.  Where no two of its rows
answer the same look-up, both depend on what the rows are and not on their order: in a reordered
catalog every look-up has the same answer, and a filter selects the same rows in the same order.
-/

namespace SqlSnapshot

section Search

variable {α : Type} {p : α → Bool} {as bs : List α}

theorem find?_eq_of_perm
    (hperm : as.Perm bs) (hunique : ∀ a ∈ as, ∀ b ∈ as, p a = true → p b = true → a = b) :
    as.find? p = bs.find? p := by
  cases hfind : as.find? p with
  | none =>
    rw [List.find?_eq_none] at hfind
    exact (List.find?_eq_none.mpr fun b hb => hfind b (hperm.mem_iff.mpr hb)).symm
  | some a =>
    have ha := List.mem_of_find?_eq_some hfind
    have hpa := List.find?_some hfind
    have hsome : (bs.find? p).isSome = true :=
      List.find?_isSome.mpr ⟨a, hperm.mem_iff.mp ha, hpa⟩
    obtain ⟨b, hb⟩ := Option.isSome_iff_exists.mp hsome
    have hmem := hperm.mem_iff.mpr (List.mem_of_find?_eq_some hb)
    rw [hb, hunique a ha b hmem hpa (List.find?_some hb)]

theorem findRev?_eq_of_perm
    (hperm : as.Perm bs) (hunique : ∀ a ∈ as, ∀ b ∈ as, p a = true → p b = true → a = b) :
    as.findRev? p = bs.findRev? p := by
  rw [List.findRev?_eq_find?_reverse, List.findRev?_eq_find?_reverse]
  apply find?_eq_of_perm ((List.reverse_perm as).trans (hperm.trans (List.reverse_perm bs).symm))
  intro a ha b hb
  exact hunique a (List.mem_reverse.mp ha) b (List.mem_reverse.mp hb)

end Search

/-- What an edge refers to. -/
def DependencyEdge.target (e : DependencyEdge) : Descriptor :=
  ⟨e.toSchema, e.toName⟩

namespace Catalog

/-- The second catalog has the rows of the first one in some order. -/
structure Reorders (c c' : Catalog) : Prop where
  procedures : c.procedures.Perm c'.procedures
  dependencies : c.dependencies.Perm c'.dependencies
  objects : c.objects.Perm c'.objects
  tables : c.tables.Perm c'.tables

/-- No look-up has two rows to choose from, and the edges of a procedure spell a target in one
way. -/
structure IsUnambiguous (c : Catalog) : Prop where
  procedures : c.HasDistinctProcedures
  objects : c.objects.Pairwise fun a b => (a.kind, a.key) ≠ (b.kind, b.key)
  tables : c.tables.Pairwise fun a b => objectKey a.schema a.name ≠ objectKey b.schema b.name
  spelling : ∀ e ∈ c.dependencies, ∀ f ∈ c.dependencies, e.fromKey = f.fromKey →
    e.target.same f.target = true → e.target = f.target

variable {c c' : Catalog}

/-! ## Look-up -/

theorem Reorders.rows (h : c.Reorders c') : c.rows.Perm c'.rows :=
  h.procedures.map _

theorem HasDistinctProcedures.pairwise_orderKey
    (h : c.HasDistinctProcedures) :
    c.rows.Pairwise fun p q => p.descriptor.orderKey ≠ q.descriptor.orderKey := by
  apply h.descriptors.imp
  intro p q hdiff heq
  rw [(Descriptor.same_iff _ _).mpr heq] at hdiff
  contradiction

theorem Reorders.definition?_eq
    (h : c.Reorders c') (hc : c.IsUnambiguous) :
    c'.definition? = c.definition? := by
  funext d
  have hnames := hc.procedures.pairwise_orderKey
  rw [Catalog.rows, List.pairwise_map] at hnames
  rw [definition?, definition?, find?_eq_of_perm h.procedures]
  intro p hp q hq hpd hqd
  apply eq_of_pairwise_ne hnames hp hq
  rw [(Descriptor.same_iff _ _).mp hpd, (Descriptor.same_iff _ _).mp hqd]

theorem Reorders.lastModified?_eq
    (h : c.Reorders c') (hc : c.IsUnambiguous) :
    c'.lastModified? = c.lastModified? := by
  funext kind schema name
  unfold lastModified?
  dsimp only
  rw [find?_eq_of_perm h.rows, find?_eq_of_perm h.objects]
  · intro a ha b hb hak hbk
    simp only [Bool.and_eq_true, beq_iff_eq] at hak hbk
    apply eq_of_pairwise_ne hc.objects ha hb
    rw [hak.1, hak.2, hbk.1, hbk.2]
  · intro p hp q hq hpk hqk
    apply eq_of_pairwise_ne hc.procedures.keys hp hq
    rw [beq_iff_eq.mp hpk, beq_iff_eq.mp hqk]

theorem Reorders.columns?_eq
    (h : c.Reorders c') (hc : c.IsUnambiguous) :
    c'.columns? = c.columns? := by
  funext schema name
  unfold columns?
  dsimp only
  rw [findRev?_eq_of_perm h.tables]
  intro t ht u hu htk huk
  apply eq_of_pairwise_ne hc.tables ht hu
  rw [beq_iff_eq.mp htk, beq_iff_eq.mp huk]

theorem Reorders.row?_eq
    (h : c.Reorders c') (hc : c.IsUnambiguous) :
    c'.graph.row? = c.graph.row? := by
  funext key
  unfold ReferenceGraph.row? graph ReferenceGraph.ofLists
  dsimp only
  rw [findRev?_eq_of_perm (h.rows.map fun r => (r.key, r))]
  intro a ha b hb hak hbk
  obtain ⟨p, hp, rfl⟩ := List.mem_map.mp ha
  obtain ⟨q, hq, rfl⟩ := List.mem_map.mp hb
  have hkeys : p.key = q.key := (beq_iff_eq.mp hak).trans (beq_iff_eq.mp hbk).symm
  rw [eq_of_pairwise_ne hc.procedures.keys hp hq hkeys]

theorem Reorders.references_perm
    (h : c.Reorders c') (key : String) :
    (c.graph.references key).Perm (c'.graph.references key) :=
  ((h.dependencies.map _).filter _).map _

theorem mem_references_iff
    {key : String} {e : DependencyEdge} :
    e ∈ c.graph.references key ↔ e ∈ c.dependencies ∧ e.fromKey = key := by
  simp [graph, ReferenceGraph.ofLists, ReferenceGraph.references]

/-! ## Selection -/

theorem Reorders.hasDistinctProcedures
    (h : c.Reorders c') (hc : c.HasDistinctProcedures) :
    c'.HasDistinctProcedures where
  descriptors := by
    apply (h.rows.pairwise_iff _).mp hc.descriptors
    intro p q hdiff
    rwa [Descriptor.same_comm]
  keys := (h.rows.pairwise_iff fun hdiff => hdiff.symm).mp hc.keys

theorem Reorders.selects_iff
    (h : c.Reorders c') {o : Options} {p : ProcedureRow} :
    c'.Selects o p ↔ c.Selects o p := by
  have hrefers : c'.Refers = c.Refers := by
    funext p q
    simp only [Refers, h.rows.mem_iff, h.dependencies.mem_iff]
  simp only [Selects, hrefers, h.rows.mem_iff]

theorem Reorders.selectedRows_eq
    (h : c.Reorders c') (hc : c.HasDistinctProcedures) (o : Options) :
    c'.selectedRows o = c.selectedRows o := by
  have hirrefl : Std.Irrefl fun p q : ProcedureRow =>
      p.descriptor.orderKey < q.descriptor.orderKey := ⟨fun p => lt_irrefl p.descriptor.orderKey⟩
  have hasymm : Std.Antisymm fun p q : ProcedureRow =>
      p.descriptor.orderKey < q.descriptor.orderKey := ⟨fun p q hpq hqp => absurd hpq hqp.asymm⟩
  apply (c'.pairwise_selectedRows o).eq_of_mem_iff (c.pairwise_selectedRows o)
  intro p
  rw [(h.hasDistinctProcedures hc).mem_selectedRows_iff, hc.mem_selectedRows_iff, h.selects_iff]

theorem Reorders.selectedNames_eq
    (h : c.Reorders c') (hc : c.HasDistinctProcedures) (o : Options) :
    c'.selectedNames o = c.selectedNames o := by
  rw [← map_descriptor_selectedRows, ← map_descriptor_selectedRows, h.selectedRows_eq hc]

theorem Reorders.length_accepted
    (h : c.Reorders c') (o : Options) :
    (c'.accepted o).length = (c.accepted o).length :=
  (h.rows.filter _).length_eq.symm

end Catalog

/-! ## The filter -/

namespace NameFilter

variable {f : NameFilter} {ds es : List Descriptor}

theorem missing_eq_of_perm
    (h : ds.Perm es) :
    f.missing es = f.missing ds := by
  unfold missing
  simp only [h.any_eq]

theorem rejectedBy_perm
    (h : ds.Perm es) (p : NamePattern) :
    (f.rejectedBy ds p).Perm (f.rejectedBy es p) := by
  have hfound := h.filter p.accepts
  unfold rejectedBy
  dsimp only
  rw [hfound.all_eq]
  split
  · exact hfound
  · exact .refl _

theorem mem_of_mem_rejectedBy
    {p : NamePattern} {d : Descriptor} (h : d ∈ f.rejectedBy ds p) :
    d ∈ ds := by
  unfold rejectedBy at h
  dsimp only at h
  split at h
  · exact (List.mem_filter.mp h).1
  · simp at h

theorem rejected_eq_of_perm
    (h : ds.Perm es) (hdistinct : ds.Pairwise fun d e => d.orderKey ≠ e.orderKey) :
    f.rejected es = f.rejected ds := by
  have hmem : ∀ d ∈ f.patterns.flatMap (f.rejectedBy ds), d ∈ ds := by
    intro d hd
    obtain ⟨p, -, hd⟩ := List.mem_flatMap.mp hd
    exact mem_of_mem_rejectedBy hd
  refine (sortedDistinctBy_congr Descriptor.orderedBy ?_ ?_).symm
  · intro d
    simp only [List.mem_flatMap, (rejectedBy_perm h _).mem_iff]
  · intro d hd e he hkey
    exact eq_of_pairwise_ne hdistinct (hmem d hd) (hmem e he) hkey

end NameFilter

end SqlSnapshot
