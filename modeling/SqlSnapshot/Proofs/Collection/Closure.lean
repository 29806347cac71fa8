import Mathlib.Data.List.Pairwise
import SqlSnapshot.Filter.Basic
import SqlSnapshot.Proofs.Collection.Reach
import SqlSnapshot.Proofs.NameOrder

/-!
# The closure of the accepted procedures

A build selects the rows of the catalog that the filter accepts and those that can be reached from
them.  In every catalog the rows that are selected are strictly increasing.  Where the rows are
distinct, no row is missed because another one has its key or its name.
-/

namespace SqlSnapshot

open Relation

namespace ReferenceGraph

variable {rows : List ProcedureRow} {edges : List DependencyEdge}

theorem mem_of_row?_eq_some
    {key : String} {row : ProcedureRow} (h : (ofLists rows edges).row? key = some row) :
    row ∈ rows ∧ row.key = key := by
  simp only [row?, ofLists, List.findRev?_eq_find?_reverse, Option.map_eq_some_iff] at h
  obtain ⟨⟨k, r⟩, hfind, rfl⟩ := h
  have hkey := List.find?_some hfind
  have hmem := List.mem_of_find?_eq_some hfind
  simp only [List.mem_reverse, List.mem_map, Prod.mk.injEq] at hmem
  obtain ⟨row, hrow, rfl, rfl⟩ := hmem
  exact ⟨hrow, by simpa using hkey⟩

theorem row?_isSome_of_mem
    {row : ProcedureRow} (h : row ∈ rows) (edges : List DependencyEdge) :
    (ofLists rows edges).isProcedure row.key = true :=
  isProcedure_iff.mpr ⟨row, List.mem_map_of_mem h⟩

theorem row?_eq_some_of_mem
    (hkeys : rows.Pairwise fun p q => p.key ≠ q.key) {row : ProcedureRow} (h : row ∈ rows)
    (edges : List DependencyEdge) :
    (ofLists rows edges).row? row.key = some row := by
  obtain ⟨found, hfound⟩ := Option.isSome_iff_exists.mp (row?_isSome_of_mem h edges)
  obtain ⟨hmem, hkey⟩ := mem_of_row?_eq_some hfound
  rw [hfound, eq_of_pairwise_ne hkeys hmem h hkey]

theorem refers_ofLists_iff
    {a b : String} :
    (ofLists rows edges).Refers a b ↔
      (∃ e ∈ edges, e.fromKey = a ∧ e.toKey = b) ∧ ∃ row ∈ rows, row.key = b := by
  simp only [Refers, successors, references, List.mem_filter, List.mem_map, isProcedure_iff]
  simp only [ofLists, List.mem_map, Prod.exists, Prod.mk.injEq, beq_iff_eq]
  constructor
  · rintro ⟨⟨e, ⟨_, _, ⟨⟨e', he, rfl, rfl⟩, rfl⟩, rfl⟩, rfl⟩, row, row', hrow, hkey, rfl⟩
    exact ⟨⟨e', he, rfl, rfl⟩, row', hrow, hkey⟩
  · rintro ⟨⟨e, he, rfl, rfl⟩, row, hrow, hkey⟩
    exact ⟨⟨e, ⟨_, _, ⟨⟨e, he, rfl, rfl⟩, rfl⟩, rfl⟩, rfl⟩, row, row, hrow, hkey, rfl⟩

theorem exists_row_of_mem_closure
    {seeds : List String} {d : Descriptor} (h : d ∈ (ofLists rows edges).closure seeds) :
    ∃ row, (ofLists rows edges).row? d.key = some row ∧ row.descriptor = d ∧
      d.key ∈ (ofLists rows edges).reach seeds := by
  have hmem := mem_of_mem_sortedDistinctBy h
  obtain ⟨row, hrow, rfl⟩ := List.mem_map.mp hmem
  obtain ⟨key, hkey, hfound⟩ := List.mem_filterMap.mp hrow
  have hrowKey : row.descriptor.key = key := (mem_of_row?_eq_some hfound).2
  rw [hrowKey]
  exact ⟨row, hfound, rfl, hkey⟩

end ReferenceGraph

namespace Catalog

/-- No two procedures of the catalog have the same descriptor or the same key. -/
structure HasDistinctProcedures (c : Catalog) : Prop where
  descriptors : c.rows.Pairwise fun p q => p.descriptor.same q.descriptor = false
  keys : c.rows.Pairwise fun p q => p.key ≠ q.key

/-- An edge of any kind leads from one row to another. -/
def Refers (c : Catalog) (p q : ProcedureRow) : Prop :=
  q ∈ c.rows ∧ ∃ e ∈ c.dependencies, e.fromKey = p.key ∧ e.toKey = q.key

/-- The row can be reached from one that the filter accepts. -/
def Selects (c : Catalog) (o : Options) (p : ProcedureRow) : Prop :=
  ∃ s ∈ c.rows, (NameFilter.ofOptions o).accepts s.descriptor = true ∧ ReflTransGen c.Refers s p

def graph (c : Catalog) : ReferenceGraph :=
  .ofLists c.rows c.dependencies

/-- The rows that the filter accepts. -/
def accepted (c : Catalog) (o : Options) : List ProcedureRow :=
  c.rows.filter fun r => (NameFilter.ofOptions o).accepts r.descriptor

/-- The descriptors of the procedures that are selected, in their order. -/
def selectedNames (c : Catalog) (o : Options) : List Descriptor :=
  c.graph.closure ((c.accepted o).map (·.key))

/-- The rows that are selected, in the order of their names. -/
def selectedRows (c : Catalog) (o : Options) : List ProcedureRow :=
  (c.selectedNames o).filterMap fun d => c.graph.row? d.key

variable {c : Catalog} {o : Options} {p : ProcedureRow}

theorem exists_row_of_mem_selectedNames
    {d : Descriptor} (h : d ∈ c.selectedNames o) :
    ∃ row, c.graph.row? d.key = some row ∧ row.descriptor = d ∧
      d.key ∈ c.graph.reach ((c.accepted o).map (·.key)) :=
  ReferenceGraph.exists_row_of_mem_closure h

theorem map_descriptor_selectedRows
    (c : Catalog) (o : Options) :
    (c.selectedRows o).map (·.descriptor) = c.selectedNames o := by
  have hrows : ∀ d ∈ c.selectedNames o, ∃ row, c.graph.row? d.key = some row ∧
      row.descriptor = d := by
    intro d hd
    obtain ⟨row, hrow, hname, -⟩ := exists_row_of_mem_selectedNames hd
    exact ⟨row, hrow, hname⟩
  rw [selectedRows]
  generalize c.selectedNames o = names at *
  induction names with
  | nil => rfl
  | cons d ds ih =>
    obtain ⟨row, hrow, hname⟩ := hrows d List.mem_cons_self
    rw [List.filterMap_cons, hrow, List.map_cons, hname,
      ih fun e he => hrows e (List.mem_cons_of_mem _ he)]

/-- The rows that are selected are strictly increasing, also where the catalog repeats rows. -/
theorem pairwise_selectedRows
    (c : Catalog) (o : Options) :
    (c.selectedRows o).Pairwise fun p q => p.descriptor.orderKey < q.descriptor.orderKey := by
  have hnames : (c.selectedNames o).Pairwise fun d e => d.orderKey < e.orderKey :=
    pairwise_sortedDistinctBy Descriptor.orderedBy _
  rw [← map_descriptor_selectedRows, List.pairwise_map] at hnames
  exact hnames

theorem isProcedure_of_mem_accepted
    (c : Catalog) (o : Options) :
    ∀ k ∈ (c.accepted o).map (·.key), c.graph.isProcedure k = true := by
  intro k hk
  obtain ⟨s, hs, rfl⟩ := List.mem_map.mp hk
  exact ReferenceGraph.row?_isSome_of_mem (List.mem_filter.mp hs).1 c.dependencies

theorem exists_selectedRow_of_mem_reach
    {key : String} (hreach : key ∈ c.graph.reach ((c.accepted o).map (·.key)))
    (hrow : c.graph.row? key = some p) :
    ∃ q ∈ c.selectedRows o, q.descriptor.same p.descriptor = true := by
  have hfound : p.descriptor ∈
      ((c.graph.reach ((c.accepted o).map (·.key))).filterMap c.graph.row?).map (·.descriptor) :=
    List.mem_map_of_mem (List.mem_filterMap.mpr ⟨key, hreach, hrow⟩)
  obtain ⟨d, hd, hsame⟩ := exists_mem_sortedDistinctBy Descriptor.orderedBy hfound
  have hselected : d ∈ (c.selectedRows o).map (·.descriptor) := by
    rw [map_descriptor_selectedRows]
    exact hd
  obtain ⟨q, hq, rfl⟩ := List.mem_map.mp hselected
  exact ⟨q, hq, (Descriptor.same_iff _ _).mpr hsame⟩

theorem mem_rows_of_mem_selectedRows
    (h : p ∈ c.selectedRows o) :
    p ∈ c.rows := by
  obtain ⟨d, -, hrow⟩ := List.mem_filterMap.mp h
  exact (ReferenceGraph.mem_of_row?_eq_some hrow).1

/-! ## Distinct procedures -/

theorem HasDistinctProcedures.eq_of_same
    (h : c.HasDistinctProcedures) {q : ProcedureRow} (hp : p ∈ c.rows) (hq : q ∈ c.rows)
    (hsame : p.descriptor.same q.descriptor = true) :
    p = q := by
  by_contra hne
  have hsymm : Std.Symm fun p q : ProcedureRow => p.descriptor.same q.descriptor = false :=
    ⟨fun a b hab => by rw [Descriptor.same_comm]; exact hab⟩
  have hdiff := h.descriptors.forall hp hq hne
  rw [hsame] at hdiff
  contradiction

theorem HasDistinctProcedures.row?_eq
    (h : c.HasDistinctProcedures) (hp : p ∈ c.rows) :
    c.graph.row? p.key = some p :=
  ReferenceGraph.row?_eq_some_of_mem h.keys hp c.dependencies

theorem HasDistinctProcedures.reflTransGen_iff
    (h : c.HasDistinctProcedures) {s : ProcedureRow} (hs : s ∈ c.rows) (hp : p ∈ c.rows) :
    ReflTransGen c.graph.Refers s.key p.key ↔ ReflTransGen c.Refers s p := by
  have hrefers : ∀ q r : ProcedureRow, c.Refers q r → c.graph.Refers q.key r.key := by
    rintro q r ⟨hr, hedge⟩
    exact ReferenceGraph.refers_ofLists_iff.mpr ⟨hedge, r, hr, rfl⟩
  constructor
  · intro hpath
    have hrow : ∀ k, ReflTransGen c.graph.Refers s.key k →
        ∃ q ∈ c.rows, q.key = k ∧ ReflTransGen c.Refers s q := by
      intro k hk
      induction hk with
      | refl => exact ⟨s, hs, rfl, ReflTransGen.refl⟩
      | tail _ hstep ih =>
        obtain ⟨q, -, rfl, hq⟩ := ih
        obtain ⟨hedge, r, hr, rfl⟩ := ReferenceGraph.refers_ofLists_iff.mp hstep
        exact ⟨r, hr, rfl, hq.tail ⟨hr, hedge⟩⟩
    obtain ⟨q, hq, hkey, hsq⟩ := hrow p.key hpath
    have heq : some q = some p := by
      rw [← h.row?_eq hq, hkey, h.row?_eq hp]
    rwa [Option.some.inj heq] at hsq
  · intro hpath
    exact hpath.lift ProcedureRow.key hrefers

theorem mem_rows_of_selects
    (h : c.Selects o p) :
    p ∈ c.rows := by
  obtain ⟨s, hs, -, hpath⟩ := h
  rcases ReflTransGen.cases_tail hpath with heq | ⟨_, -, hstep⟩
  · exact heq ▸ hs
  · exact hstep.1

/-- The rows that are selected are exactly those that can be reached from accepted ones. -/
theorem HasDistinctProcedures.mem_selectedRows_iff
    (h : c.HasDistinctProcedures) :
    p ∈ c.selectedRows o ↔ c.Selects o p := by
  have hseeds := isProcedure_of_mem_accepted c o
  constructor
  · intro hp
    obtain ⟨d, hd, hrow⟩ := List.mem_filterMap.mp hp
    obtain ⟨row, hrow', hname, hreach⟩ := exists_row_of_mem_selectedNames hd
    rw [hrow] at hrow'
    obtain rfl := Option.some.inj hrow'
    obtain ⟨hmem, hkey⟩ := ReferenceGraph.mem_of_row?_eq_some hrow
    obtain ⟨k, hk, hpath⟩ := (ReferenceGraph.mem_reach_iff hseeds).mp hreach
    obtain ⟨s, hs, rfl⟩ := List.mem_map.mp hk
    obtain ⟨hs, haccepted⟩ := List.mem_filter.mp hs
    rw [← hkey] at hpath
    exact ⟨s, hs, haccepted, (h.reflTransGen_iff hs hmem).mp hpath⟩
  · intro hselects
    have hp := mem_rows_of_selects hselects
    obtain ⟨s, hs, haccepted, hpath⟩ := hselects
    have hreach : p.key ∈ c.graph.reach ((c.accepted o).map (·.key)) := by
      apply (ReferenceGraph.mem_reach_iff hseeds).mpr
      refine ⟨s.key, List.mem_map_of_mem ?_, (h.reflTransGen_iff hs hp).mpr hpath⟩
      exact List.mem_filter.mpr ⟨hs, haccepted⟩
    obtain ⟨q, hq, hsame⟩ := exists_selectedRow_of_mem_reach hreach (h.row?_eq hp)
    rwa [← h.eq_of_same (mem_rows_of_mem_selectedRows hq) hp hsame]

end Catalog

end SqlSnapshot
