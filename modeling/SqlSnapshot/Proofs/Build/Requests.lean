import SqlSnapshot.Proofs.Build.Selection
import SqlSnapshot.Proofs.Filter.Requests

/-!
# What becomes of the names in a filter

Every exact token of a filter finds procedures in the allowed schemas, which are then seeds of the
collection, or finds procedures elsewhere only, or finds none.  The collection says so of every
procedure of the second kind and of every name of the third kind once.
-/

namespace SqlSnapshot

namespace Catalog

/-- The rows that an exact token finds, whatever their schemas. -/
def matched (c : Catalog) (token : List Char) : List ProcedureRow :=
  c.rows.filter fun p => (NamePattern.exactOf token).accepts p.descriptor

variable {c : Catalog} {o : Options} {p : ProcedureRow}

theorem mem_matched_iff
    {token : List Char} :
    p ∈ c.matched token ↔
      p ∈ c.rows ∧ (NamePattern.exactOf token).accepts p.descriptor = true :=
  List.mem_filter

theorem matched_eq_nil_iff
    {token : List Char} :
    c.matched token = [] ↔ ∀ d ∈ c.rows.map ProcedureRow.descriptor,
      (NamePattern.exactOf token).accepts d = false := by
  simp [matched]

/-- A seed is selected, where of several rows with its key the last stands for all, and of several
rows with one descriptor one. -/
theorem exists_selectedRow_of_mem_accepted
    (h : p ∈ c.accepted o) :
    ∃ q ∈ c.rows, q.key = p.key ∧
      ∃ r ∈ c.selectedRows o, r.descriptor.same q.descriptor = true := by
  have hseeds := isProcedure_of_mem_accepted c o
  have hkey := List.mem_map_of_mem (f := (·.key)) h
  obtain ⟨q, hq⟩ := Option.isSome_iff_exists.mp (hseeds p.key hkey)
  obtain ⟨hrow, hqkey⟩ := ReferenceGraph.mem_of_row?_eq_some hq
  have hreach : p.key ∈ c.graph.reach ((c.accepted o).map (·.key)) :=
    (ReferenceGraph.mem_reach_iff hseeds).mpr ⟨_, hkey, .refl⟩
  exact ⟨q, hrow, hqkey, exists_selectedRow_of_mem_reach hreach hq⟩

theorem lists_missingNames
    (c : Catalog) (o : Options) :
    Descriptor.Lists (c.missingNames o) fun d =>
      ∃ token ∈ o.exactTokens, d = .parse (String.ofList token) ∧ c.matched token = [] := by
  refine (NameFilter.lists_missing o _).congr fun d => ?_
  simp only [matched_eq_nil_iff]

theorem lists_rejectedNames
    (c : Catalog) (o : Options) :
    Descriptor.Lists ((NameFilter.ofOptions o).rejected (c.rows.map (·.descriptor))) fun d =>
      ∃ token ∈ o.exactTokens, d ∈ (c.matched token).map (·.descriptor) ∧
        ∀ p ∈ c.matched token, (NameFilter.ofOptions o).allowsSchema p.schema = false := by
  refine (NameFilter.lists_rejected o _).congr fun d => ?_
  simp only [List.mem_map, mem_matched_iff, forall_exists_index, and_imp,
    forall_apply_eq_imp_iff₂]
  constructor
  · rintro ⟨⟨p, hp, rfl⟩, token, htoken, hfound, hall⟩
    exact ⟨token, htoken, ⟨p, ⟨hp, hfound⟩, rfl⟩, hall⟩
  · rintro ⟨token, htoken, ⟨p, ⟨hp, hfound⟩, rfl⟩, hall⟩
    exact ⟨⟨p, hp, rfl⟩, token, htoken, hfound, hall⟩

end Catalog

namespace Collection

/-- An item stands for the row. -/
def Covers (found : Collection) (c : Catalog) (p : ProcedureRow) : Prop :=
  ∃ i ∈ found.chosen, ∃ q ∈ c.rows, q.key = p.key ∧ i.descriptor.same q.descriptor = true

/-- What becomes of an exact token. -/
inductive TokenFate (found : Collection) (c : Catalog) (o : Options) (token : List Char) :
    Prop where
  /-- All that it finds in the allowed schemas are seeds, and selected. -/
  | seeded (allowed : ∃ p ∈ c.matched token,
        (NameFilter.ofOptions o).allowsSchema p.schema = true)
      (seeds : ∀ p ∈ c.matched token, (NameFilter.ofOptions o).allowsSchema p.schema = true →
        p ∈ c.accepted o ∧ found.Covers c p)
  | rejected (finds : c.matched token ≠ [])
      (outside : ∀ p ∈ c.matched token, (NameFilter.ofOptions o).allowsSchema p.schema = false)
  | missing (none : c.matched token = [])

/-- The collection accounts for every exact token, and for no other. -/
structure AnswersTokens (found : Collection) (c : Catalog) (o : Options)
    (missing rejected : List Descriptor) : Prop where
  seedCount : found.seedCount = (c.accepted o).length
  fates : ∀ token ∈ o.exactTokens, found.TokenFate c o token
  lists_missing : Descriptor.Lists missing fun d =>
    ∃ token ∈ o.exactTokens, d = .parse (String.ofList token) ∧ c.matched token = []
  lists_rejected : Descriptor.Lists rejected fun d =>
    ∃ token ∈ o.exactTokens, d ∈ (c.matched token).map (·.descriptor) ∧
      ∀ p ∈ c.matched token, (NameFilter.ofOptions o).allowsSchema p.schema = false
  skipped : found.decided .skip = missing.map .skipped
  issues : found.issues = missing.map (fun d => .procedureNotFound d.display) ++
    rejected.map fun d => .procedureFilteredBySchema d.display

end Collection

namespace Build

variable {env : Conditions} {o : Options} {w w' : World} {found : Collection}

theorem covers_of_mem_accepted
    (h : run (collect env o) w = (.ok found, w')) {p : ProcedureRow}
    (hp : p ∈ env.catalog.accepted o) :
    found.Covers env.catalog p := by
  obtain ⟨hforall, -, -⟩ := describes_of_collect h
  obtain ⟨q, hq, hkey, r, hr, hsame⟩ := Catalog.exists_selectedRow_of_mem_accepted hp
  obtain ⟨i, hi, hdescribes⟩ := exists_right_of_forall₂ hforall hr
  exact ⟨i, hi, q, hq, hkey, by rw [hdescribes.descriptor]; exact hsame⟩

theorem tokenFate_of_collect
    (h : run (collect env o) w = (.ok found, w')) {token : List Char}
    (htoken : token ∈ o.exactTokens) :
    found.TokenFate env.catalog o token := by
  by_cases hnone : env.catalog.matched token = []
  · exact .missing hnone
  · by_cases hallowed : ∃ p ∈ env.catalog.matched token,
        (NameFilter.ofOptions o).allowsSchema p.schema = true
    · refine .seeded hallowed fun p hp hschema => ?_
      obtain ⟨hrow, hfound⟩ := Catalog.mem_matched_iff.mp hp
      have hseed : p ∈ env.catalog.accepted o :=
        List.mem_filter.mpr ⟨hrow, NameFilter.accepts_of_exactOf htoken hschema hfound⟩
      exact ⟨hseed, covers_of_mem_accepted h hseed⟩
    · exact .rejected hnone fun p hp => Bool.eq_false_iff.mpr fun hschema =>
        hallowed ⟨p, hp, hschema⟩

/-- A collection accounts for every exact token of the filter: the procedures that the token finds
in the allowed schemas are seeds; what it finds outside of them alone is reported, each procedure
once; and if it finds nothing, what it names is skipped and reported once. -/
theorem collect_answers_tokens (env : Conditions) (o : Options) (w : World) :
    (env.Calm → w.cancelled = false → ∃ found w', run (collect env o) w = (.ok found, w')) ∧
    ∀ found w', run (collect env o) w = (.ok found, w') →
      ∃ missing rejected, found.AnswersTokens env.catalog o missing rejected := by
  constructor
  · intro hcalm hw
    obtain ⟨found, w', hrun, -⟩ := succeeds_collect hcalm o w hw
    exact ⟨found, w', hrun⟩
  · intro found w' h
    have hskipped := (describes_of_collect h).2.1
    obtain ⟨items, hfound, -, -⟩ := collect_eq_collectionOf h
    refine ⟨_, _, ?_, fun token => tokenFate_of_collect h,
      Catalog.lists_missingNames _ o, Catalog.lists_rejectedNames _ o, hskipped, ?_⟩
    · rw [hfound]
      rfl
    · rw [hfound]
      rfl

end Build

/-- Tokens that find procedures in the allowed schema, elsewhere, and nowhere, some of them twice,
and globs. -/
def Options.sampleTokens : Options where
  projectRoot := "/p"
  schemas := ["sales"]
  procedures := some "SHIP; audit.log Log [Audit].[LOG] gone sales.Gone [SALES].[gone] t* *.lost"

theorem Build.collect_answers_tokens_sample :
    (Conditions.calm .sample ⟨0, 0⟩).Calm ∧ (default : World).cancelled = false ∧
    ∃ found w' missing rejected,
      run (collect (.calm .sample ⟨0, 0⟩) .sampleTokens) default = (.ok found, w') ∧
      found.AnswersTokens .sample .sampleTokens missing rejected ∧
      (∃! d, d ∈ missing ∧ d.same ⟨"SALES", "gone"⟩ = true) ∧
      (∃! d, d ∈ rejected ∧ d.same ⟨"audit", "Log"⟩ = true) ∧
      found.Covers .sample ⟨"sales", "Ship", 1, ⟨1000, 0⟩⟩ := by
  obtain ⟨hsucceeds, hanswers⟩ :=
    collect_answers_tokens (.calm .sample ⟨0, 0⟩) .sampleTokens default
  obtain ⟨found, w', hrun⟩ := hsucceeds (Conditions.calm_calm _ _) rfl
  obtain ⟨missing, rejected, h⟩ := hanswers found w' hrun
  refine ⟨Conditions.calm_calm _ _, rfl, found, w', missing, rejected, hrun, h, ?_, ?_, ?_⟩
  · exact h.lists_missing.complete ⟨"SALES", "gone"⟩
      ⟨"[SALES].[gone]".toList, by decide +kernel, by decide +kernel, by decide +kernel⟩
  · exact h.lists_rejected.complete ⟨"audit", "Log"⟩
      ⟨"Log".toList, by decide +kernel, by decide +kernel, by decide +kernel⟩
  · cases h.fates "SHIP".toList (by decide +kernel) with
    | seeded _ seeds =>
      exact (seeds ⟨"sales", "Ship", 1, ⟨1000, 0⟩⟩ (by decide +kernel) (by decide +kernel)).2
    | rejected _ outside =>
      exact absurd (outside ⟨"sales", "Ship", 1, ⟨1000, 0⟩⟩ (by decide +kernel)) (by decide +kernel)
    | missing none => exact absurd none (by decide +kernel)

end SqlSnapshot
