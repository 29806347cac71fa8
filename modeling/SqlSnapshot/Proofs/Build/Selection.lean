import SqlSnapshot.Proofs.Build.Collect

/-!
# What a build selects

The items of a collection that are not skipped stand for the rows that the catalog selects.  Where
the procedures of the catalog are distinct, these are exactly the procedures that can be reached
from those that the filter accepts.
-/

namespace SqlSnapshot

theorem exists_left_of_forall₂
    {α β : Type} {R : α → β → Prop} {as : List α} {bs : List β} (h : List.Forall₂ R as bs)
    {b : β} (hb : b ∈ bs) :
    ∃ a ∈ as, R a b := by
  induction h with
  | nil => simp at hb
  | cons hab _ ih =>
    rcases List.mem_cons.mp hb with rfl | hb
    · exact ⟨_, List.mem_cons_self, hab⟩
    · obtain ⟨a, ha, hR⟩ := ih hb
      exact ⟨a, List.mem_cons_of_mem _ ha, hR⟩

theorem exists_right_of_forall₂
    {α β : Type} {R : α → β → Prop} {as : List α} {bs : List β} (h : List.Forall₂ R as bs)
    {a : α} (ha : a ∈ as) :
    ∃ b ∈ bs, R a b :=
  exists_left_of_forall₂ h.flip ha

namespace Collection

/-- The items of the procedures that are analyzed or reused. -/
def chosen (c : Collection) : List CollectionItem :=
  c.items.filter (·.decision != .skip)

theorem decided_eq_filter_chosen
    (c : Collection) {decision : Decision} (h : decision ≠ .skip) :
    c.decided decision = c.chosen.filter (·.decision == decision) := by
  rw [decided, chosen, List.filter_filter]
  apply List.filter_congr
  intro i _
  cases hi : i.decision with
  | skip =>
    have hne : (Decision.skip == decision) = false := by simpa using h.symm
    simp [hne]
  | analyze => simp
  | reuse => simp

end Collection

namespace Build

variable {env : Conditions} {o : Options} {w w' : World} {found : Collection}

theorem describes_of_collect
    (h : run (collect env o) w = (.ok found, w')) :
    List.Forall₂
        (fun p i => i.Describes env o (w.cache.lookup? o p.descriptor) w.disk p)
        (env.catalog.selectedRows o) found.chosen ∧
      found.decided .skip = ((NameFilter.ofOptions o).missing
        (env.catalog.rows.map (·.descriptor))).map .skipped ∧
      Collects w w' := by
  obtain ⟨items, hitems, hforall, hasks⟩ := collect_eq_ok h
  have hchosen : ∀ i ∈ items, i.decision ≠ .skip := by
    intro i hi
    obtain ⟨p, -, hdescribes⟩ := exists_left_of_forall₂ hforall hi
    rcases hdescribes.chosen with hd | hd <;> simp [hd]
  have hmissing : ∀ i ∈ ((NameFilter.ofOptions o).missing
      (env.catalog.rows.map (·.descriptor))).map CollectionItem.skipped,
      i.decision = .skip := by
    intro i hi
    obtain ⟨d, -, rfl⟩ := List.mem_map.mp hi
    rfl
  have heq : found.chosen = items := by
    rw [Collection.chosen, hitems, List.filter_append, List.filter_eq_self.mpr,
      List.filter_eq_nil_iff.mpr, List.append_nil]
    · intro i hi
      simp [hmissing i hi]
    · intro i hi
      simpa using hchosen i hi
  refine ⟨heq ▸ hforall, ?_, hasks⟩
  rw [Collection.decided, hitems, List.filter_append, List.filter_eq_nil_iff.mpr,
    List.filter_eq_self.mpr, List.nil_append]
  · intro i hi
    simp [hmissing i hi]
  · intro i hi
    simpa using hchosen i hi

/-- The selected procedures are exactly those that can be reached from the accepted ones.  The
filter is asked only where the paths begin, so that procedures of other schemas are among them. -/
theorem collect_selects_reachable
    (env : Conditions) (hdistinct : env.catalog.HasDistinctProcedures) (o : Options) (w : World) :
    (env.Calm → w.cancelled = false → ∃ found w', run (collect env o) w = (.ok found, w')) ∧
    ∀ found w', run (collect env o) w = (.ok found, w') →
      ∃ rows : List ProcedureRow,
        (found.chosen.map fun i => (i.descriptor, i.lastModified)) =
          (rows.map fun p => (p.descriptor, some p.modified)) ∧
        (rows.Pairwise fun p q => p.descriptor.isBefore q.descriptor = true) ∧
        ∀ p, p ∈ rows ↔ env.catalog.Selects o p := by
  constructor
  · intro hcalm hw
    obtain ⟨found, w', hrun, -⟩ := succeeds_collect hcalm o w hw
    exact ⟨found, w', hrun⟩
  · intro found w' h
    obtain ⟨hforall, -, -⟩ := describes_of_collect h
    refine ⟨env.catalog.selectedRows o, ?_, ?_, fun p => hdistinct.mem_selectedRows_iff⟩
    · rw [eq_comm, ← List.forall₂_eq_eq_eq, List.forall₂_map_left_iff, List.forall₂_map_right_iff]
      apply hforall.imp
      intro p i hdescribes
      rw [hdescribes.descriptor, hdescribes.lastModified]
    · apply (env.catalog.pairwise_selectedRows o).imp
      intro p q hlt
      exact (Descriptor.isBefore_iff _ _).mpr hlt

end Build

/-- Two procedures that refer to each other, and a third one of another schema. -/
def Catalog.sample : Catalog where
  procedures := [
    ⟨⟨"sales", "Ship", 1, ⟨1000, 0⟩⟩,
      some "CREATE PROCEDURE sales.Ship AS SELECT o.Id FROM sales.Orders o"⟩,
    ⟨⟨"Stock", "Take", 2, ⟨2000, 0⟩⟩, some "CREATE PROCEDURE Stock.Take AS EXEC sales.Ship"⟩,
    ⟨⟨"audit", "Log", 3, ⟨3000, 0⟩⟩, none⟩]
  dependencies := [
    ⟨"Sales", "Ship", "stock", "take", none⟩,
    ⟨"stock", "Take", "SALES", "ship", some .view⟩,
    ⟨"stock", "Take", "stock", "Missing", none⟩]
  tables := [⟨"sales", "Orders", [⟨"Id", "int", none, none, none, false⟩]⟩]

theorem Catalog.hasDistinctProcedures_sample : Catalog.sample.HasDistinctProcedures :=
  ⟨by decide +kernel, by decide +kernel⟩

/-- The sample after one of its procedures was changed. -/
def Catalog.sampleLater : Catalog :=
  Catalog.sample.putProcedure "audit" "log" ⟨9000, 0⟩
    "CREATE PROCEDURE audit.Log AS SELECT 2 AS Two"

theorem Catalog.hasDistinctProcedures_sampleLater : Catalog.sampleLater.HasDistinctProcedures :=
  ⟨by decide +kernel, by decide +kernel⟩

namespace Conditions

/-- The catalog answers every call, and nothing fails. -/
def calm (catalog : Catalog) (now : Timestamp) : Conditions where
  catalog
  now

theorem calm_calm (catalog : Catalog) (now : Timestamp) : (calm catalog now).Calm :=
  ⟨fun _ _ => rfl, fun _ => rfl, fun _ => rfl⟩

end Conditions

/-- Where only `sales` is allowed, the procedure of `Stock` is selected for the reference to it. -/
theorem Build.collect_selects_reachable_sample :
    Catalog.sample.HasDistinctProcedures ∧
    ∃ found w', run (collect (.calm .sample ⟨0, 0⟩) { projectRoot := "/p", schemas := ["sales"] })
        default = (.ok found, w') ∧
      ∃ i ∈ found.chosen, i.descriptor = ⟨"Stock", "Take"⟩ ∧ i.lastModified = some ⟨2000, 0⟩ := by
  refine ⟨Catalog.hasDistinctProcedures_sample, ?_⟩
  obtain ⟨hsucceeds, hexact⟩ := collect_selects_reachable (.calm .sample ⟨0, 0⟩)
    Catalog.hasDistinctProcedures_sample { projectRoot := "/p", schemas := ["sales"] } default
  obtain ⟨found, w', hrun⟩ := hsucceeds (Conditions.calm_calm _ _) rfl
  obtain ⟨rows, hitems, -, hrows⟩ := hexact found w' hrun
  refine ⟨found, w', hrun, ?_⟩
  have hpath : Catalog.sample.Refers ⟨"sales", "Ship", 1, ⟨1000, 0⟩⟩
      ⟨"Stock", "Take", 2, ⟨2000, 0⟩⟩ := by
    refine ⟨by decide +kernel, ⟨"Sales", "Ship", "stock", "take", none⟩, by decide +kernel, ?_⟩
    decide +kernel
  have hmem : ⟨"Stock", "Take", 2, ⟨2000, 0⟩⟩ ∈ rows := by
    apply (hrows _).mpr
    exact ⟨_, by decide +kernel, by decide +kernel, .single hpath⟩
  have hpair : (⟨"Stock", "Take"⟩, some ⟨2000, 0⟩) ∈
      found.chosen.map fun i => (i.descriptor, i.lastModified) := by
    rw [hitems]
    exact List.mem_map.mpr ⟨_, hmem, rfl⟩
  obtain ⟨i, hi, heq⟩ := List.mem_map.mp hpair
  rw [Prod.mk.injEq] at heq
  exact ⟨i, hi, heq⟩

end SqlSnapshot
