import SqlSnapshot.Proofs.Enrichment.Enricher
import SqlSnapshot.Proofs.Outcome

/-!
# Replies of a provider

A provider may fail and may answer differently from one call to the next.  Its enricher asks it for
a table once, and what it remembers only grows, so that an enrichment that succeeds has read one
answer for each table: it comes to what it comes to with these answers and no provider
(`exists_enrich_eq`).
-/

namespace SqlSnapshot.Enrichment

variable {σ ε : Type} {provider : Lookup (StateT σ (Except ε))} {tables later last : TableCache}

/-- For a table of the key, the provider answers with the columns in some state. -/
def Lookup.Replies (provider : Lookup (StateT σ (Except ε))) (key : String)
    (columns : Option (List TableColumn)) : Prop :=
  ∃ schema table state next,
    objectKey schema table = key ∧ (provider schema table).run state = .ok (columns, next)

/-- In no state does the provider fail. -/
def Lookup.Succeeds (provider : Lookup (StateT σ (Except ε))) : Prop :=
  ∀ schema table state, ∃ reply, (provider schema table).run state = .ok reply

/-- What was remembered is remembered still, and what came to it are replies. -/
structure Lookup.Adds (provider : Lookup (StateT σ (Except ε))) (tables later : TableCache) :
    Prop where
  keeps : ∀ key columns, tables.lookup key = some columns → later.lookup key = some columns
  replied : ∀ key columns, later.lookup key = some columns →
    tables.lookup key = some columns ∨ provider.Replies key columns

theorem Lookup.Adds.refl (tables : TableCache) : provider.Adds tables tables :=
  ⟨fun _ _ => id, fun _ _ => .inl⟩

theorem Lookup.Adds.trans (h : provider.Adds tables later) (h' : provider.Adds later last) :
    provider.Adds tables last where
  keeps key columns hlookup := h'.keeps key columns (h.keeps key columns hlookup)
  replied key columns hlookup := (h'.replied key columns hlookup).elim (h.replied key columns) .inr

theorem Lookup.adds_cons
    {schema table : String} {state next : σ} {columns : Option (List TableColumn)}
    (hmiss : tables.lookup (objectKey schema table) = none)
    (hreply : (provider schema table).run state = .ok (columns, next)) :
    provider.Adds tables ((objectKey schema table, columns) :: tables) where
  keeps key columns' hlookup := by
    have hother : (key == objectKey schema table) = false := by
      rw [beq_eq_false_iff_ne]
      rintro rfl
      rw [hmiss] at hlookup
      cases hlookup
    rw [List.lookup_cons, hother]
    exact hlookup
  replied key columns' hlookup := by
    rw [List.lookup_cons] at hlookup
    split at hlookup
    · rename_i hkey
      cases hlookup
      exact .inr ⟨schema, table, state, next, (eq_of_beq hkey).symm, hreply⟩
    · exact .inl hlookup

/-- One step of an enricher. -/
abbrev EnricherStep (σ ε : Type) := StateT TableCache (StateT σ (Except ε))

theorem run_enricher_of_known
    {schema table : String} {columns : Option (List TableColumn)}
    (h : tables.lookup (objectKey schema table) = some columns) (state : σ) :
    ((enricher provider schema table).run tables).run state = .ok ((columns, tables), state) := by
  rw [run_enricher, h]
  rfl

theorem run_enricher_of_unknown
    {schema table : String} (h : tables.lookup (objectKey schema table) = none) (state : σ) :
    ((enricher provider schema table).run tables).run state =
      ((provider schema table).run state).map fun reply =>
        ((reply.1, (objectKey schema table, reply.1) :: tables), reply.2) := by
  rw [run_enricher, h]
  dsimp only
  rw [StateT.run_bind]
  cases (provider schema table).run state <;> rfl

/-- The step only adds replies to what is remembered and, if nothing else is remembered in the end
than in `last`, gives the value. -/
def Consults (provider : Lookup (StateT σ (Except ε))) (last : TableCache) (α : Type)
    (step : EnricherStep σ ε α) (direct : Id α) : Prop :=
  ∀ tables state value later next,
    (step.run tables).run state = .ok ((value, later), next) →
      provider.Adds tables later ∧ (provider.Adds later last → value = direct)

theorem isSimulation_consults (provider : Lookup (StateT σ (Except ε))) (last : TableCache) :
    IsSimulation (Consults provider last) where
  pure := by
    rintro α a tables state value later next ⟨⟩
    exact ⟨.refl tables, fun _ => rfl⟩
  bind := by
    intro α β x y f g hx hf tables state value later next hrun
    rw [StateT.run_bind, StateT.run_bind] at hrun
    obtain ⟨⟨⟨a, between⟩, state'⟩, hfirst, hsecond⟩ := exists_of_bind_eq_ok hrun
    obtain ⟨hadds, hvalue⟩ := hx tables state a between state' hfirst
    obtain ⟨hadds', hvalue'⟩ := hf a between state' value later next hsecond
    refine ⟨hadds.trans hadds', fun hlast => ?_⟩
    rw [hvalue' hlast, hvalue (hadds'.trans hlast)]
    rfl

/-- The answer that is remembered, and else the provider's reply in the given state. -/
def answerIn (provider : Lookup (StateT σ (Except ε))) (state : σ) (last : TableCache)
    (schema table : String) : Option (List TableColumn) :=
  match last.lookup (objectKey schema table), (provider schema table).run state with
  | some columns, _ => columns
  | none, .ok reply => reply.1
  | none, .error _ => none

theorem consults_enricher
    (provider : Lookup (StateT σ (Except ε))) (state : σ) (last : TableCache)
    (schema table : String) :
    Consults provider last _ (enricher provider schema table)
      (answerIn provider state last schema table) := by
  intro tables before value later next hrun
  have hanswer : ∀ columns, later.lookup (objectKey schema table) = some columns →
      provider.Adds later last → columns = answerIn provider state last schema table := by
    intro columns hlater hlast
    rw [answerIn, hlast.keeps _ columns hlater]
  cases hlookup : tables.lookup (objectKey schema table) with
  | some columns =>
    rw [run_enricher_of_known hlookup] at hrun
    cases hrun
    exact ⟨.refl tables, hanswer _ hlookup⟩
  | none =>
    rw [run_enricher_of_unknown hlookup] at hrun
    obtain ⟨⟨columns, state'⟩, hreply, heq⟩ := exists_of_map_eq_ok hrun
    cases heq
    exact ⟨Lookup.adds_cons hlookup hreply, hanswer columns List.lookup_cons_self⟩

/-- What an enrichment comes to with answers that are there from the start. -/
def enrichWith (columns? : String → String → Option (List TableColumn)) (a : Analysis) :
    Analysis × EnrichmentNotes :=
  Id.run (a.enrich (m := Id) fun schema table => columns? schema table)

/-- An enrichment that succeeds has read one answer for each table. -/
theorem run_enrich_eq
    {a : Analysis} {state next : σ} {outcome : Analysis × EnrichmentNotes}
    (h : ((a.enrich (enricher provider)).run tables).run state = .ok ((outcome, later), next)) :
    outcome = enrichWith (answerIn provider state later) a ∧ provider.Adds tables later := by
  obtain ⟨hadds, hvalue⟩ := (isSimulation_consults provider later).enrich a
    (fun b _ => consults_enricher provider state later b.schema b.table)
    tables state outcome later next h
  exact ⟨hvalue (.refl later), hadds⟩

/-- Where no look-up fails, the step gives a value. -/
def Completes (α : Type) (step : EnricherStep σ ε α) (_ : Id α) : Prop :=
  ∀ tables state, ∃ outcome, (step.run tables).run state = .ok outcome

theorem isSimulation_completes : IsSimulation (Completes (σ := σ) (ε := ε)) where
  pure a tables state := ⟨_, rfl⟩
  bind := by
    intro α β x y f g hx hf tables state
    obtain ⟨⟨⟨a, between⟩, state'⟩, hfirst⟩ := hx tables state
    obtain ⟨outcome, hsecond⟩ := hf a between state'
    refine ⟨outcome, ?_⟩
    rw [StateT.run_bind, StateT.run_bind, hfirst]
    exact hsecond

theorem Lookup.Succeeds.completes_enricher
    (h : provider.Succeeds) (schema table : String) (direct : Id (Option (List TableColumn))) :
    Completes _ (enricher provider schema table) direct := by
  intro tables state
  cases hlookup : tables.lookup (objectKey schema table) with
  | some columns => exact ⟨_, run_enricher_of_known hlookup state⟩
  | none =>
    obtain ⟨reply, hreply⟩ := h schema table state
    rw [run_enricher_of_unknown hlookup, hreply]
    exact ⟨_, rfl⟩

/-- With a provider that does not fail, an enrichment succeeds, whatever the enricher remembers, and
reads for each table what was remembered or a reply. -/
theorem Lookup.Succeeds.exists_enrich_eq
    (h : provider.Succeeds) (tables : TableCache) (state : σ) (a : Analysis) :
    ∃ columns? later next,
      (∀ schema table, tables.lookup (objectKey schema table) = some (columns? schema table) ∨
        provider.Replies (objectKey schema table) (columns? schema table)) ∧
      ((a.enrich (enricher provider)).run tables).run state =
        .ok ((enrichWith columns? a, later), next) := by
  have hcompletes :
      Completes _ (a.enrich (enricher provider)) (a.enrich (m := Id) fun _ _ => none) :=
    isSimulation_completes.enrich a fun b _ => h.completes_enricher b.schema b.table none
  obtain ⟨⟨⟨outcome, later⟩, next⟩, hrun⟩ := hcompletes tables state
  obtain ⟨houtcome, hadds⟩ := run_enrich_eq hrun
  refine ⟨answerIn provider state later, later, next, ?_, houtcome ▸ hrun⟩
  intro schema table
  cases hlookup : later.lookup (objectKey schema table) with
  | some columns =>
    rw [answerIn, hlookup]
    exact hadds.replied _ columns hlookup
  | none =>
    obtain ⟨⟨columns, state'⟩, hreply⟩ := h schema table state
    rw [answerIn, hlookup, hreply]
    exact .inr ⟨schema, table, state, state', rfl, hreply⟩

end SqlSnapshot.Enrichment
