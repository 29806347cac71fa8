import SqlSnapshot.Proofs.Build.Selection
import SqlSnapshot.Proofs.Text.FinalSigma

/-!
# Descriptors and keys

Procedures have two identities.  Descriptors compare schema and name, each character in lower case
by itself; keys are the schema and the name in lower case as whole texts, joined by a dot.  The two
agree on all names but for dots, which a key does not tell from its own, and for capital sigmas that
end words.  A catalog is collected in full exactly if no two of its procedures share a key.
-/

namespace SqlSnapshot

/-! ## Names -/

namespace Descriptor

/-- What descriptors and keys read differently: the number of dots in the schemas, and the places
where a capital sigma ends a word. -/
structure MarksAgree (a b : Descriptor) : Prop where
  dots : a.schema.toList.count '.' = b.schema.toList.count '.'
  schemaSigmas : Text.finalSigmas a.schema = Text.finalSigmas b.schema
  nameSigmas : Text.finalSigmas a.name = Text.finalSigmas b.name

variable {a b : Descriptor}

theorem toList_key (d : Descriptor) :
    d.key.toList = (Text.lower d.schema).toList ++ '.' :: (Text.lower d.name).toList := by
  rw [key, objectKey, String.toList_append, String.toList_append, List.append_assoc]
  rfl

/-- Schemas with equally many dots are told from names, so that equal keys have equal parts. -/
theorem key_eq_iff_lower_eq
    (hdots : a.schema.toList.count '.' = b.schema.toList.count '.') :
    a.key = b.key ↔
      Text.lower a.schema = Text.lower b.schema ∧ Text.lower a.name = Text.lower b.name := by
  constructor
  · intro h
    have hlists := congrArg String.toList h
    rw [toList_key, toList_key] at hlists
    rw [← Text.count_dot_lower, ← Text.count_dot_lower b.schema] at hdots
    obtain ⟨hschema, hname⟩ := append_cons_inj_of_count hdots hlists
    exact ⟨String.toList_injective hschema, String.toList_injective hname⟩
  · rintro ⟨hschema, hname⟩
    rw [key, key, objectKey, objectKey, hschema, hname]

theorem MarksAgree.same_iff_key_eq
    (h : a.MarksAgree b) :
    a.same b = true ↔ a.key = b.key := by
  rw [same_iff_caseKey_eq, key_eq_iff_lower_eq h.dots,
    Text.caseKey_eq_iff_of_finalSigmas_eq h.schemaSigmas,
    Text.caseKey_eq_iff_of_finalSigmas_eq h.nameSigmas]

theorem marksAgree_of_same_of_key_eq
    (hsame : a.same b = true) (hkey : a.key = b.key) :
    a.MarksAgree b := by
  obtain ⟨hschema, hname⟩ := same_iff_caseKey_eq.mp hsame
  have hdots : a.schema.toList.count '.' = b.schema.toList.count '.' := by
    rw [← Text.count_dot_caseKey, hschema, Text.count_dot_caseKey]
  obtain ⟨hschemaLower, hnameLower⟩ := (key_eq_iff_lower_eq hdots).mp hkey
  exact ⟨hdots, Text.finalSigmas_eq_of_caseKey_eq hschema hschemaLower,
    Text.finalSigmas_eq_of_caseKey_eq hname hnameLower⟩

/-- Where one of the identities holds, the marks decide whether the other one does. -/
theorem same_iff_key_eq_iff_marksAgree
    (h : a.same b = true ∨ a.key = b.key) :
    (a.same b = true ↔ a.key = b.key) ↔ a.MarksAgree b := by
  constructor
  · intro hiff
    rcases h with hsame | hkey
    · exact marksAgree_of_same_of_key_eq hsame (hiff.mp hsame)
    · exact marksAgree_of_same_of_key_eq (hiff.mpr hkey) hkey
  · exact MarksAgree.same_iff_key_eq

end Descriptor

/-! ## Rows -/

namespace Catalog

variable {c : Catalog} {o : Options}

/-- Of rows that share a key one is lost, since both stand for the same place in the graph. -/
theorem pairwise_key_ne_of_selectedNames
    (hdistinct : c.rows.Pairwise fun p q => p.descriptor.same q.descriptor = false)
    (hall : ∀ p ∈ c.rows, p.descriptor ∈ c.selectedNames o) :
    c.rows.Pairwise fun p q => p.key ≠ q.key := by
  refine hdistinct.imp_of_mem fun {p q} hp hq hne hkey => ?_
  obtain ⟨row, hrow, hname, -⟩ := exists_row_of_mem_selectedNames (hall p hp)
  obtain ⟨row', hrow', hname', -⟩ := exists_row_of_mem_selectedNames (hall q hq)
  have hkeys : p.descriptor.key = q.descriptor.key := hkey
  rw [← hkeys, hrow] at hrow'
  rw [← hname, ← hname', Option.some.inj hrow', Descriptor.same_refl] at hne
  contradiction

theorem HasDistinctProcedures.selectedRows_perm
    (h : c.HasDistinctProcedures) (hfilter : NameFilter.ofOptions o = ⟨[], []⟩) :
    (c.selectedRows o).Perm c.rows := by
  have hrows : c.rows.Nodup := by
    refine h.descriptors.imp fun {p q} hpq heq => ?_
    rw [heq, Descriptor.same_refl] at hpq
    contradiction
  have hselected : (c.selectedRows o).Nodup := by
    refine (c.pairwise_selectedRows o).imp fun {p q} hlt heq => ?_
    rw [heq] at hlt
    exact lt_irrefl _ hlt
  rw [List.perm_ext_iff_of_nodup hselected hrows]
  intro p
  refine ⟨mem_rows_of_mem_selectedRows, fun hp => h.mem_selectedRows_iff.mpr ?_⟩
  refine ⟨p, hp, ?_, .refl⟩
  rw [hfilter]
  rfl

end Catalog

/-! ## Collections -/

namespace Build

variable {env : Conditions} {o : Options} {w w' : World} {found : Collection}

/-- Without a filter nothing is skipped: the items are those of the rows that are selected. -/
theorem map_items_of_collect
    (hfilter : NameFilter.ofOptions o = ⟨[], []⟩)
    (h : run (collect env o) w = (.ok found, w')) :
    (found.items.map fun i => (i.descriptor, i.lastModified)) =
      (env.catalog.selectedRows o).map fun p => (p.descriptor, some p.modified) := by
  obtain ⟨items, hitems, hforall, -⟩ := collect_eq_ok h
  have hmissing : (NameFilter.ofOptions o).missing (env.catalog.rows.map (·.descriptor)) = [] := by
    rw [hfilter, NameFilter.missing, List.filterMap_nil, Descriptor.sortedDistinct,
      sortedDistinctBy, List.mergeSort_nil]
    rfl
  rw [hitems, hmissing, List.map_nil, List.append_nil, eq_comm, ← List.forall₂_eq_eq_eq,
    List.forall₂_map_left_iff, List.forall₂_map_right_iff]
  apply hforall.imp
  intro p i hdescribes
  rw [hdescribes.descriptor, hdescribes.lastModified]

/-- A collection without a filter has the procedures of the catalog if and only if no two of them
share a key. -/
theorem items_perm_rows_iff
    (hfilter : NameFilter.ofOptions o = ⟨[], []⟩)
    (hdistinct : env.catalog.rows.Pairwise fun p q => p.descriptor.same q.descriptor = false)
    (h : run (collect env o) w = (.ok found, w')) :
    (found.items.map fun i => (i.descriptor, i.lastModified)).Perm
        (env.catalog.rows.map fun p => (p.descriptor, some p.modified)) ↔
      env.catalog.rows.Pairwise fun p q => p.key ≠ q.key := by
  rw [map_items_of_collect hfilter h]
  constructor
  · intro hperm
    apply Catalog.pairwise_key_ne_of_selectedNames (o := o) hdistinct
    intro p hp
    have hnames := hperm.map Prod.fst
    rw [List.map_map, List.map_map] at hnames
    rw [← Catalog.map_descriptor_selectedRows]
    exact hnames.mem_iff.mpr (List.mem_map.mpr ⟨p, hp, rfl⟩)
  · intro hkeys
    have hcomplete : env.catalog.HasDistinctProcedures := ⟨hdistinct, hkeys⟩
    exact (hcomplete.selectedRows_perm hfilter).map _

/-- The identities of procedures.  Where two descriptors have one of them in common, they have the
other one exactly if the dots of the schemas and the sigmas at the ends of words agree; and a
catalog of distinct descriptors is collected in full exactly if its keys are distinct as well. -/
theorem identities_agree_iff
    (a b : Descriptor) (env : Conditions) (o : Options) (w : World) :
    (a.same b = true ∨ a.key = b.key →
      ((a.same b = true ↔ a.key = b.key) ↔ a.MarksAgree b)) ∧
    (NameFilter.ofOptions o = ⟨[], []⟩ →
      (env.catalog.rows.Pairwise fun p q => p.descriptor.same q.descriptor = false) →
      (env.Calm → w.cancelled = false → ∃ found w', run (collect env o) w = (.ok found, w')) ∧
      ∀ found w', run (collect env o) w = (.ok found, w') →
        ((found.items.map fun i => (i.descriptor, i.lastModified)).Perm
            (env.catalog.rows.map fun p => (p.descriptor, some p.modified)) ↔
          env.catalog.rows.Pairwise fun p q => p.key ≠ q.key)) := by
  refine ⟨Descriptor.same_iff_key_eq_iff_marksAgree, fun hfilter hdistinct => ⟨?_, ?_⟩⟩
  · intro hcalm hw
    obtain ⟨found, w', hrun, -⟩ := succeeds_collect hcalm o w hw
    exact ⟨found, w', hrun⟩
  · intro found w' h
    exact items_perm_rows_iff hfilter hdistinct h

/-- A schema whose sigma ends a word in both spellings, and a catalog without dots. -/
theorem identities_agree_iff_sample :
    (⟨"ΟΔΟΣ", "Get"⟩ : Descriptor).key = (⟨"οδΟΣ", "GET"⟩ : Descriptor).key ∧
    ∃ found w', run (collect (.calm .sample ⟨0, 0⟩) { projectRoot := "/p" }) default =
        (.ok found, w') ∧
      (found.items.map fun i => (i.descriptor, i.lastModified)).Perm
        (Catalog.sample.rows.map fun p => (p.descriptor, some p.modified)) := by
  obtain ⟨hnames, hcollect⟩ := identities_agree_iff ⟨"ΟΔΟΣ", "Get"⟩ ⟨"οδΟΣ", "GET"⟩
    (.calm .sample ⟨0, 0⟩) { projectRoot := "/p" } default
  constructor
  · have hsame : (⟨"ΟΔΟΣ", "Get"⟩ : Descriptor).same ⟨"οδΟΣ", "GET"⟩ = true := by decide +kernel
    have hmarks : (⟨"ΟΔΟΣ", "Get"⟩ : Descriptor).MarksAgree ⟨"οδΟΣ", "GET"⟩ :=
      ⟨by decide +kernel, by decide +kernel, by decide +kernel⟩
    exact ((hnames (.inl hsame)).mpr hmarks).mp hsame
  · obtain ⟨hsucceeds, hcomplete⟩ :=
      hcollect rfl Catalog.hasDistinctProcedures_sample.descriptors
    obtain ⟨found, w', hrun⟩ := hsucceeds (Conditions.calm_calm _ _) rfl
    exact ⟨found, w', hrun, (hcomplete found w' hrun).mpr Catalog.hasDistinctProcedures_sample.keys⟩

end Build

/-- The procedures `[a.b].[c]` and `[a].[b.c]`. -/
def Catalog.dotted : Catalog where
  procedures := [⟨⟨"a.b", "c", 1, ⟨1000, 0⟩⟩, none⟩, ⟨⟨"a", "b.c", 2, ⟨2000, 0⟩⟩, none⟩]

/-- Two procedures with one key, of which one is collected, and one procedure with two keys. -/
theorem Build.identities_disagree :
    ((⟨"a.b", "c"⟩ : Descriptor).same ⟨"a", "b.c"⟩ = false ∧
      (⟨"a.b", "c"⟩ : Descriptor).key = (⟨"a", "b.c"⟩ : Descriptor).key) ∧
    ((⟨"dbo", "ΟΔΟΣ"⟩ : Descriptor).same ⟨"dbo", "οδοσ"⟩ = true ∧
      (⟨"dbo", "ΟΔΟΣ"⟩ : Descriptor).key ≠ (⟨"dbo", "οδοσ"⟩ : Descriptor).key) ∧
    (Catalog.dotted.rows.Pairwise fun p q => p.descriptor.same q.descriptor = false) ∧
    ∃ found w', run (collect (.calm .dotted ⟨0, 0⟩) { projectRoot := "/p" }) default =
        (.ok found, w') ∧
      ¬ (found.items.map fun i => (i.descriptor, i.lastModified)).Perm
        (Catalog.dotted.rows.map fun p => (p.descriptor, some p.modified)) := by
  have hdistinct : Catalog.dotted.rows.Pairwise
      fun p q => p.descriptor.same q.descriptor = false := by decide +kernel
  refine ⟨by decide +kernel, by decide +kernel, hdistinct, ?_⟩
  obtain ⟨found, w', hrun, -⟩ := succeeds_collect (Conditions.calm_calm .dotted ⟨0, 0⟩)
    { projectRoot := "/p" } default rfl
  refine ⟨found, w', hrun, fun hperm => ?_⟩
  have hkeys := (items_perm_rows_iff rfl hdistinct hrun).mp hperm
  exact absurd hkeys (by decide +kernel)

end SqlSnapshot
