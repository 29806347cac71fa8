import SqlSnapshot.Build.Effects
import SqlSnapshot.Proofs.Enrichment

/-!
# Enrichers

An enricher asks its provider for a table once and remembers the answer under the table's key.  A
provider that gives one answer for one table cannot be told from its enricher by an enrichment,
whatever the enricher remembers of earlier ones: `Lookup.IsConsistent.map_run_enrich`.
-/

namespace SqlSnapshot.Enrichment

section Remembering

variable {m : Type → Type} [Monad m]

/-- The columns of a table as they are remembered; a table that is not is asked for. -/
def remembering (remembered : m TableCache) (remember : String → Option (List TableColumn) → m Unit)
    (ask : Lookup m) : Lookup m := fun schema table => do
  let key := objectKey schema table
  match (← remembered).lookup key with
  | some columns => return columns
  | none =>
    let columns ← ask schema table
    remember key columns
    return columns

/-- The look-up of an enricher, whose state is what it remembers. -/
def enricher (provider : Lookup m) : Lookup (StateT TableCache m) :=
  remembering get (fun key columns => modify ((key, columns) :: ·)) fun schema table =>
    StateT.lift (provider schema table)

theorem run_enricher [LawfulMonad m] (provider : Lookup m) (schema table : String)
    (tables : TableCache) :
    (enricher provider schema table).run tables =
      match tables.lookup (objectKey schema table) with
      | some columns => pure (columns, tables)
      | none => provider schema table >>= fun columns =>
          pure (columns, (objectKey schema table, columns) :: tables) := by
  simp only [enricher, remembering, StateT.run_bind, StateT.run_get, pure_bind]
  split
  · rfl
  · simp

end Remembering

/-- A build looks tables up as an enricher does that asks the catalog. -/
theorem tableColumns_eq_remembering (env : Conditions) :
    Build.tableColumns env =
      remembering (do return (← get).tables)
        (fun key columns => modify fun w => { w with tables := (key, columns) :: w.tables })
        fun schema table => Build.ask env (.tableColumns schema table) fun c =>
          c.columns? schema table := rfl

variable {ε : Type} {provider : Lookup (Except ε)} {tables : TableCache}

/-- Every name of a table gets the answer that the table gets. -/
def Lookup.IsConsistent (provider : Lookup (Except ε)) : Prop :=
  ∀ schema table schema' table', objectKey schema table = objectKey schema' table' →
    provider schema table = provider schema' table'

/-- What is remembered was answered by the provider. -/
def Lookup.Answered (provider : Lookup (Except ε)) (tables : TableCache) : Prop :=
  ∀ schema table columns, tables.lookup (objectKey schema table) = some columns →
    provider schema table = .ok columns

theorem Lookup.answered_nil : provider.Answered [] := by
  intro schema table columns h
  simp at h

theorem Lookup.IsConsistent.answered_cons
    (hprovider : provider.IsConsistent) (htables : provider.Answered tables)
    {schema table : String} {columns : Option (List TableColumn)}
    (h : provider schema table = .ok columns) :
    provider.Answered ((objectKey schema table, columns) :: tables) := by
  intro schema' table' columns' hlookup
  rw [List.lookup_cons] at hlookup
  split at hlookup
  · rename_i heq
    rw [hprovider schema' table' schema table (by simpa using heq), h, Option.some.inj hlookup]
  · exact htables schema' table' columns' hlookup

/-- A step of an enricher comes to what it comes to with the provider in the enricher's place. -/
def AsAsked (provider : Lookup (Except ε)) (α : Type) (step : StateT TableCache (Except ε) α)
    (direct : Except ε α) : Prop :=
  ∀ tables, provider.Answered tables →
    (step.run tables).map Prod.fst = direct ∧
      ∀ a later, step.run tables = .ok (a, later) → provider.Answered later

theorem isSimulation_asAsked (provider : Lookup (Except ε)) :
    IsSimulation (AsAsked provider) where
  pure := by
    intro α a tables htables
    refine ⟨rfl, ?_⟩
    rintro b later ⟨⟩
    exact htables
  bind := by
    intro α β x y f g hx hf tables htables
    obtain ⟨hvalue, hlater⟩ := hx tables htables
    rw [StateT.run_bind, ← hvalue]
    cases hrun : x.run tables with
    | error e =>
      refine ⟨rfl, ?_⟩
      rintro b later ⟨⟩
    | ok outcome => exact hf outcome.1 outcome.2 (hlater _ _ hrun)

theorem Lookup.IsConsistent.asAsked_enricher
    (hprovider : provider.IsConsistent) (schema table : String) :
    AsAsked provider _ (enricher provider schema table) (provider schema table) := by
  intro tables htables
  rw [run_enricher]
  cases hlookup : tables.lookup (objectKey schema table) with
  | some columns =>
    refine ⟨(htables schema table columns hlookup).symm, ?_⟩
    rintro b later ⟨⟩
    exact htables
  | none =>
    cases hask : provider schema table with
    | error e =>
      refine ⟨rfl, ?_⟩
      rintro b later ⟨⟩
    | ok columns =>
      refine ⟨rfl, ?_⟩
      rintro b later ⟨⟩
      exact hprovider.answered_cons htables hask

/-- An enricher over a consistent provider enriches as if it remembered nothing. -/
theorem Lookup.IsConsistent.map_run_enrich
    (hprovider : provider.IsConsistent) (htables : provider.Answered tables) (a : Analysis) :
    ((a.enrich (enricher provider)).run tables).map Prod.fst = a.enrich provider :=
  ((isSimulation_asAsked provider).enrich a
    (fun b _ => hprovider.asAsked_enricher b.schema b.table) tables htables).1

theorem Lookup.IsConsistent.answered_run_enrich
    (hprovider : provider.IsConsistent) (htables : provider.Answered tables) {a : Analysis}
    {outcome : Analysis × EnrichmentNotes} {later : TableCache}
    (h : (a.enrich (enricher provider)).run tables = .ok (outcome, later)) :
    provider.Answered later :=
  ((isSimulation_asAsked provider).enrich a
    (fun b _ => hprovider.asAsked_enricher b.schema b.table) tables htables).2 outcome later h

end SqlSnapshot.Enrichment
