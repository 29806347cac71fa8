import SqlSnapshot.Proofs.Build.Effects
import SqlSnapshot.Proofs.Build.Selection
import SqlSnapshot.Proofs.Enrichment.Repeated
import SqlSnapshot.Proofs.Enrichment.Replies

/-!
# One enricher for many enrichments

An enricher whose provider fails in the middle of an enrichment keeps what it has learned until
then, and asks again only for the table that it did not get.  Where the answers of the provider
depend on nothing but the keys of the tables, each enrichment that succeeds comes to what it comes
to when nothing fails and nothing is remembered, and no table is given out twice
(`enrichEach_transparent`).

`Recalls` is all that a look-up with failures does.  The look-up of an enricher over any provider
has it (`Lookup.AnswersByKey.recalls`), and so has the look-up of a build
(`Build.recalls_tableColumns`).
-/

namespace SqlSnapshot.Enrichment

/-- Steps that may fail and leave their effects on the state even then, as those of a build do. -/
abbrev Attempt (σ ε : Type) := ExceptT ε (StateM σ)

variable {σ τ ε α β : Type}

/-- The outcome of a step, and the state that it leaves. -/
def attempt (step : Attempt σ ε α) (s : σ) : Except ε α × σ :=
  StateT.run (ExceptT.run step) s

theorem attempt_bind (x : Attempt σ ε α) (f : α → Attempt σ ε β) (s : σ) :
    attempt (x >>= f) s =
      match attempt x s with
      | (.ok a, s₁) => attempt (f a) s₁
      | (.error e, s₁) => (.error e, s₁) := by
  change ExceptT.bindCont f (attempt x s).1 (attempt x s).2 = _
  rcases attempt x s with ⟨e | a, s₁⟩
  · rfl
  · rfl

/-- The outcomes of enrichments one after another, each of which finds what those before it left,
also where they failed. -/
def enrichEach (lookup : Lookup (Attempt σ ε)) :
    List Analysis → σ → List (Except ε (Analysis × EnrichmentNotes)) × σ
  | [], s => ([], s)
  | a :: as, s =>
    let (outcome, s) := attempt (a.enrich lookup) s
    let (others, s) := enrichEach lookup as s
    (outcome :: others, s)

/-! ## Look-ups that remember -/

/-- What the look-up does to a state in which `tables` are remembered and `given` are the keys of
the tables that were given out: it answers from memory without another effect, and what it does not
remember it asks for and remembers, unless the question fails. -/
structure Recalls (tables : σ → TableCache) (given : σ → List String)
    (answer : String → Option (List TableColumn)) (mayFail : Prop)
    (lookup : Lookup (Attempt σ ε)) : Prop where
  of_known : ∀ {s : σ} {schema table : String} {columns : Option (List TableColumn)},
    (tables s).lookup (objectKey schema table) = some columns →
      attempt (lookup schema table) s = (.ok columns, s)
  of_unknown : ∀ {s : σ} {schema table : String},
    (tables s).lookup (objectKey schema table) = none →
      (∃ s', attempt (lookup schema table) s = (.ok (answer (objectKey schema table)), s') ∧
        tables s' = (objectKey schema table, answer (objectKey schema table)) :: tables s ∧
        given s' = given s ++ [objectKey schema table]) ∨
      mayFail ∧ ∃ e s', attempt (lookup schema table) s = (.error e, s') ∧
        tables s' = tables s ∧ given s' = given s

/-- What is remembered are the answers, and each was given out once since the tables of `before`
were. -/
structure IsExact (answer : String → Option (List TableColumn)) (before : List String)
    (tables : TableCache) (given : List String) : Prop where
  answered : ∀ key columns, tables.lookup key = some columns → columns = answer key
  given_eq : given = before ++ (tables.map (·.1)).reverse
  nodup : (tables.map (·.1)).Nodup

variable {answer : String → Option (List TableColumn)} {mayFail : Prop} {before noted : List String}

theorem isExact_nil (before : List String) : IsExact answer before [] before where
  answered key columns h := by simp at h
  given_eq := (List.append_nil before).symm
  nodup := List.nodup_nil

theorem IsExact.cons
    {remembered : TableCache} {key : String} (h : IsExact answer before remembered noted)
    (hmiss : remembered.lookup key = none) :
    IsExact answer before ((key, answer key) :: remembered) (noted ++ [key]) where
  answered key' columns hlookup := by
    rw [List.lookup_cons] at hlookup
    split at hlookup
    · rename_i hkey
      rw [eq_of_beq hkey]
      exact (Option.some.inj hlookup).symm
    · exact h.answered key' columns hlookup
  given_eq := by
    rw [h.given_eq, List.map_cons, List.reverse_cons, List.append_assoc]
  nodup := by
    rw [List.map_cons, List.nodup_cons]
    refine ⟨fun hmem => ?_, h.nodup⟩
    obtain ⟨⟨key', columns⟩, hentry, rfl⟩ := List.mem_map.mp hmem
    have hne := List.lookup_eq_none_iff.mp hmiss _ hentry
    simp at hne

variable {tables : σ → TableCache} {given : σ → List String} {lookup : Lookup (Attempt σ ε)}

/-- The step leaves what is remembered exact, and comes to the value or fails where it may. -/
def Settles (tables : σ → TableCache) (given : σ → List String)
    (answer : String → Option (List TableColumn)) (mayFail : Prop) (before : List String)
    (α : Type) (step : Attempt σ ε α) (direct : Id α) : Prop :=
  ∀ s, IsExact answer before (tables s) (given s) →
    IsExact answer before (tables (attempt step s).2) (given (attempt step s).2) ∧
      ((attempt step s).1 = .ok direct ∨ mayFail ∧ ∃ e, (attempt step s).1 = .error e)

theorem isSimulation_settles :
    IsSimulation (Settles (ε := ε) tables given answer mayFail before) where
  pure a s hs := ⟨hs, .inl rfl⟩
  bind := by
    intro α β x y f g hx hf s hs
    obtain ⟨hbetween, hvalue⟩ := hx s hs
    rw [attempt_bind]
    rcases hrun : attempt x s with ⟨outcome, s₁⟩
    rw [hrun] at hbetween hvalue
    rcases hvalue with hok | ⟨hfail, e, herror⟩
    · obtain rfl : outcome = .ok y := hok
      exact hf y s₁ hbetween
    · obtain rfl : outcome = .error e := herror
      exact ⟨hbetween, .inr ⟨hfail, e, rfl⟩⟩

theorem Recalls.settles
    (h : Recalls tables given answer mayFail lookup) (schema table : String) :
    Settles tables given answer mayFail before _ (lookup schema table)
      (answer (objectKey schema table)) := by
  intro s hs
  cases hlookup : (tables s).lookup (objectKey schema table) with
  | some columns =>
    rw [h.of_known hlookup]
    exact ⟨hs, .inl (congrArg Except.ok (hs.answered _ _ hlookup))⟩
  | none =>
    rcases h.of_unknown hlookup with
      ⟨s', hrun, htables, hgiven⟩ | ⟨hfail, e, s', hrun, htables, hgiven⟩
    · rw [hrun, htables, hgiven]
      exact ⟨hs.cons hlookup, .inl rfl⟩
    · rw [hrun, htables, hgiven]
      exact ⟨hs, .inr ⟨hfail, e, rfl⟩⟩

/-- The enrichment with the answers for the keys of tables, of which none is remembered. -/
def enrichByKey (answer : String → Option (List TableColumn)) (a : Analysis) :
    Analysis × EnrichmentNotes :=
  enrichWith (fun schema table => answer (objectKey schema table)) a

theorem Recalls.settles_enrich
    (h : Recalls tables given answer mayFail lookup) (a : Analysis) :
    Settles tables given answer mayFail before _ (a.enrich lookup) (enrichByKey answer a) :=
  isSimulation_settles.enrich a fun b _ => h.settles b.schema b.table

theorem Recalls.attempt_enrich
    (h : Recalls tables given answer mayFail lookup) (hfail : ¬ mayFail) {s : σ}
    (hs : IsExact answer before (tables s) (given s)) (a : Analysis) :
    (attempt (a.enrich lookup) s).1 = .ok (enrichByKey answer a) :=
  (h.settles_enrich a s hs).2.resolve_right fun herror => hfail herror.1

theorem Recalls.enrichEach
    (h : Recalls tables given answer mayFail lookup) (as : List Analysis) {s : σ}
    (hs : IsExact answer before (tables s) (given s)) :
    List.Forall₂
        (fun a outcome => ∀ enriched, outcome = .ok enriched → enriched = enrichByKey answer a) as
        (enrichEach lookup as s).1 ∧
      IsExact answer before (tables (enrichEach lookup as s).2)
        (given (enrichEach lookup as s).2) := by
  induction as generalizing s with
  | nil => exact ⟨.nil, hs⟩
  | cons a as ih =>
    obtain ⟨hbetween, hvalue⟩ := h.settles_enrich a s hs
    obtain ⟨hothers, hend⟩ := ih hbetween
    refine ⟨.cons (fun enriched hok => ?_) hothers, hend⟩
    rcases hvalue with hvalue | ⟨-, e, herror⟩
    · exact Except.ok.inj (hok.symm.trans hvalue)
    · cases hok.symm.trans herror

/-! ## Enrichers over any provider -/

/-- Where the provider answers, the answer is the one for the key of the table. -/
def Lookup.AnswersByKey (provider : Lookup (Attempt τ ε))
    (answer : String → Option (List TableColumn)) : Prop :=
  ∀ schema table state columns,
    (attempt (provider schema table) state).1 = .ok columns →
      columns = answer (objectKey schema table)

/-- The provider that never fails. -/
def unfailing (answer : String → Option (List TableColumn)) : Lookup (Attempt τ ε) :=
  fun schema table => pure (answer (objectKey schema table))

/-- The state of the provider, what its enricher remembers, and the keys of the tables that the
provider has given out, in order. -/
structure EnricherState (τ : Type) where
  provider : τ
  tables : TableCache := []
  given : List String := []

/-- Asks the provider, and notes the table if it is given out. -/
def askNoting (provider : Lookup (Attempt τ ε)) : Lookup (Attempt (EnricherState τ) ε) :=
  fun schema table => ExceptT.mk fun s =>
    match attempt (provider schema table) s.provider with
    | (.ok columns, next) =>
      (.ok columns, { s with provider := next, given := s.given ++ [objectKey schema table] })
    | (.error e, next) => (.error e, { s with provider := next })

/-- The look-up of an enricher that lives on when its provider fails. -/
def enricherOver (provider : Lookup (Attempt τ ε)) : Lookup (Attempt (EnricherState τ) ε) :=
  remembering (do return (← get).tables)
    (fun key columns => modify fun s => { s with tables := (key, columns) :: s.tables })
    (askNoting provider)

theorem attempt_enricherOver (provider : Lookup (Attempt τ ε)) (schema table : String)
    (s : EnricherState τ) :
    attempt (enricherOver provider schema table) s =
      match s.tables.lookup (objectKey schema table) with
      | some columns => (.ok columns, s)
      | none =>
        match attempt (provider schema table) s.provider with
        | (.ok columns, next) => (.ok columns, {
            provider := next
            tables := (objectKey schema table, columns) :: s.tables
            given := s.given ++ [objectKey schema table] })
        | (.error e, next) => (.error e, { s with provider := next }) := by
  have hask : attempt (askNoting provider schema table) s =
      match attempt (provider schema table) s.provider with
      | (.ok columns, next) =>
        (.ok columns, { s with provider := next, given := s.given ++ [objectKey schema table] })
      | (.error e, next) => (.error e, { s with provider := next }) := rfl
  have hremembered : attempt (do return (← get).tables : Attempt (EnricherState τ) ε TableCache) s =
      (.ok s.tables, s) := rfl
  rw [enricherOver, remembering, attempt_bind, hremembered]
  dsimp only
  cases s.tables.lookup (objectKey schema table) with
  | some columns => rfl
  | none =>
    dsimp only
    rw [attempt_bind, hask]
    rcases attempt (provider schema table) s.provider with ⟨e | columns, next⟩
    · rfl
    · rfl

theorem Lookup.AnswersByKey.recalls
    {provider : Lookup (Attempt τ ε)} (h : provider.AnswersByKey answer)
    (hfail : ∀ schema table state e,
      (attempt (provider schema table) state).1 = .error e → mayFail) :
    Recalls EnricherState.tables EnricherState.given answer mayFail (enricherOver provider) where
  of_known hlookup := by
    rw [attempt_enricherOver, hlookup]
  of_unknown := by
    intro s schema table hlookup
    rw [attempt_enricherOver, hlookup]
    dsimp only
    have hanswer := h schema table s.provider
    have hmay := hfail schema table s.provider
    rcases hrun : attempt (provider schema table) s.provider with ⟨e | columns, next⟩
    · exact .inr ⟨hmay e (congrArg Prod.fst hrun), e, _, rfl, rfl, rfl⟩
    · obtain rfl := hanswer columns (congrArg Prod.fst hrun)
      exact .inl ⟨_, rfl, rfl, rfl⟩

theorem answersByKey_unfailing :
    (unfailing answer : Lookup (Attempt τ ε)).AnswersByKey answer := by
  rintro schema table state columns ⟨⟩
  rfl

theorem attempt_enrich_unfailing
    (answer : String → Option (List TableColumn)) (a : Analysis) (state : τ) :
    (attempt (a.enrich (enricherOver (ε := ε) (unfailing answer))) { provider := state }).1 =
      .ok (enrichByKey answer a) := by
  have hrecalls : Recalls EnricherState.tables EnricherState.given answer False
      (enricherOver (τ := τ) (ε := ε) (unfailing answer)) :=
    answersByKey_unfailing.recalls fun schema table state e herror => by cases herror
  exact hrecalls.attempt_enrich id (isExact_nil []) a

/-- Over a provider that fails at will, the enrichments that succeed come to those by key, and each
table is given out once. -/
theorem Lookup.AnswersByKey.enrichEach
    {provider : Lookup (Attempt τ ε)} (h : provider.AnswersByKey answer) (state : τ)
    (as : List Analysis) :
    List.Forall₂
        (fun a outcome => ∀ enriched, outcome = .ok enriched → enriched = enrichByKey answer a) as
        (enrichEach (enricherOver provider) as { provider := state }).1 ∧
      (enrichEach (enricherOver provider) as { provider := state }).2.given.Nodup := by
  have hrecalls : Recalls EnricherState.tables EnricherState.given answer True
      (enricherOver provider) := h.recalls fun _ _ _ _ _ => trivial
  obtain ⟨houtcomes, hexact⟩ :=
    hrecalls.enrichEach as (s := { provider := state }) (isExact_nil [])
  refine ⟨houtcomes, ?_⟩
  rw [hexact.given_eq, List.nil_append, List.nodup_reverse]
  exact hexact.nodup

end SqlSnapshot.Enrichment

namespace SqlSnapshot

/-! ## The enricher of a build -/

/-- The key of the table that the catalog gives out at a call, if it is one for a table and does not
fail; `n` is the number of calls before. -/
def Conditions.tableGiven? (env : Conditions) (n : Nat) (call : Call) : Option String :=
  match call, env.atCall n call with
  | .tableColumns _ _, some (.fails _) => none
  | .tableColumns schema table, _ => some (objectKey schema table)
  | _, _ => none

/-- The keys of the tables that the catalog has given out, in order. -/
def World.tablesGiven (env : Conditions) (w : World) : List String :=
  w.calls.zipIdx.filterMap fun (call, n) => env.tableGiven? n call

/-- The columns of the tables of the key; the catalog answers from no more than that. -/
def Catalog.columnsByKey (c : Catalog) (key : String) : Option (List TableColumn) :=
  (c.tables.findRev? fun t => objectKey t.schema t.name == key).map (·.columns)

open Enrichment

theorem World.tablesGiven_append (env : Conditions) (w : World) (call : Call) :
    World.tablesGiven env { w with calls := w.calls ++ [call] } =
      w.tablesGiven env ++ (env.tableGiven? w.calls.length call).toList := by
  rw [tablesGiven, tablesGiven, List.zipIdx_append, List.filterMap_append]
  cases h : env.tableGiven? w.calls.length call <;> simp [h]

theorem Build.run_tableColumns (env : Conditions) (schema table : String) (w : World) :
    run (tableColumns env schema table) w =
      match w.tables.lookup (objectKey schema table) with
      | some columns => (.ok columns, w)
      | none =>
        match run (ask env (.tableColumns schema table) fun c => c.columns? schema table) w with
        | (.ok columns, w₁) =>
          (.ok columns, { w₁ with tables := (objectKey schema table, columns) :: w₁.tables })
        | (.error e, w₁) => (.error e, w₁) := by
  rw [tableColumns, run_bind, run_get]
  dsimp only
  cases w.tables.lookup (objectKey schema table) with
  | some columns => rfl
  | none =>
    dsimp only
    rw [run_bind]
    rcases run (ask env (.tableColumns schema table) fun c => c.columns? schema table) w with
      ⟨e | columns, w₁⟩
    · rfl
    · rfl

theorem Build.run_ask_cases {α : Type} (env : Conditions) (call : Call) (answer : Catalog → α)
    (w : World) :
    run (ask env call answer) w =
      match env.atCall w.calls.length call with
      | some (.fails reason) => (.error (.catalog reason), { w with calls := w.calls ++ [call] })
      | some .cancels =>
        (.ok (answer env.catalog), { w with calls := w.calls ++ [call], cancelled := true })
      | none => (.ok (answer env.catalog), { w with calls := w.calls ++ [call] }) := by
  rw [ask, run_bind_of_eq_ok (run_get w), run_bind_of_eq_ok (run_modify _ w)]
  rcases env.atCall w.calls.length call with _ | (reason | _)
  · rfl
  · rfl
  · rfl

/-- Some call of the build fails. -/
def Conditions.MayFail (env : Conditions) : Prop :=
  ∃ n call reason, env.atCall n call = some (.fails reason)

theorem Conditions.Calm.not_mayFail {env : Conditions} (h : env.Calm) : ¬ env.MayFail := by
  rintro ⟨n, call, reason, hfails⟩
  rw [h.atCall n call] at hfails
  cases hfails

/-- A build looks tables up as an enricher does whose provider is the catalog. -/
theorem Build.recalls_tableColumns (env : Conditions) :
    Recalls World.tables (World.tablesGiven env) env.catalog.columnsByKey env.MayFail
      (tableColumns env) where
  of_known := by
    intro w schema table columns hlookup
    have hrun := run_tableColumns env schema table w
    rw [hlookup] at hrun
    exact hrun
  of_unknown := by
    intro w schema table hlookup
    have hrun := run_tableColumns env schema table w
    rw [hlookup, run_ask_cases] at hrun
    have hgiven := World.tablesGiven_append env w (.tableColumns schema table)
    cases hcall : env.atCall w.calls.length (.tableColumns schema table) with
    | none =>
      simp only [Conditions.tableGiven?, hcall] at hrun hgiven
      exact .inl ⟨_, hrun, rfl, hgiven⟩
    | some incident =>
      cases incident with
      | cancels =>
        simp only [Conditions.tableGiven?, hcall] at hrun hgiven
        exact .inl ⟨_, hrun, rfl, hgiven⟩
      | fails reason =>
        simp only [Conditions.tableGiven?, hcall] at hrun hgiven
        exact .inr ⟨⟨_, _, reason, hcall⟩, _, _, hrun, rfl, hgiven.trans (List.append_nil _)⟩

/-- An enricher cannot be told from one without a memory.  Over any provider that answers by the
keys of tables, and over the catalog of a build, each enrichment of a sequence that succeeds comes
to what it comes to with a provider that never fails and an enricher that remembers nothing,
whatever failed before; and each table is given out at most once in the whole sequence. -/
theorem Enrichment.enrichEach_transparent {τ ε : Type} {provider : Lookup (Attempt τ ε)}
    {answer : String → Option (List TableColumn)}
    (h : provider.AnswersByKey answer) (state : τ) (env : Conditions) {w : World}
    (hw : w.tables = []) (as : List Analysis) :
    (List.Forall₂ (fun a outcome => ∀ enriched, outcome = .ok enriched →
          (attempt (a.enrich (enricherOver (ε := ε) (unfailing answer)))
            { provider := state }).1 = .ok enriched)
        as (enrichEach (enricherOver provider) as { provider := state }).1 ∧
      (enrichEach (enricherOver provider) as { provider := state }).2.given.Nodup) ∧
    List.Forall₂ (fun a outcome => ∀ enriched, outcome = .ok enriched →
        ∀ env' w', env'.Calm → env'.catalog = env.catalog → w'.tables = [] →
          (Build.run (a.enrich (Build.tableColumns env')) w').1 = .ok enriched)
      as (enrichEach (Build.tableColumns env) as w).1 ∧
    ∃ given, World.tablesGiven env (enrichEach (Build.tableColumns env) as w).2 =
      World.tablesGiven env w ++ given ∧ given.Nodup := by
  have hexact : ∀ {env : Conditions} {w : World}, w.tables = [] →
      IsExact env.catalog.columnsByKey (w.tablesGiven env) w.tables (w.tablesGiven env) :=
    fun hw => hw ▸ isExact_nil _
  obtain ⟨houtcomes, hgiven⟩ := h.enrichEach state as
  obtain ⟨hbuilt, hend⟩ := (Build.recalls_tableColumns env).enrichEach as (hexact hw)
  refine ⟨⟨houtcomes.imp ?_, hgiven⟩, hbuilt.imp ?_, _, hend.given_eq, ?_⟩
  · intro a outcome henriched enriched hok
    rw [henriched enriched hok]
    exact attempt_enrich_unfailing answer a state
  · intro a outcome henriched enriched hok env' w' hcalm hcatalog hw'
    rw [henriched enriched hok, ← hcatalog]
    exact (Build.recalls_tableColumns env').attempt_enrich hcalm.not_mayFail (hexact hw') a
  · exact List.nodup_reverse.mpr hend.nodup

/-- A provider that fails at every other call, and else answers as the sample catalog. -/
def Enrichment.faultyProvider : Lookup (Attempt Nat Unit) := fun schema table =>
  ExceptT.mk fun n =>
    (if n % 2 = 0 then .error ()
      else .ok (Catalog.sample.columnsByKey (objectKey schema table)), n + 1)

theorem Enrichment.answersByKey_faultyProvider :
    faultyProvider.AnswersByKey Catalog.sample.columnsByKey := by
  intro schema table n columns h
  change (if n % 2 = 0 then (.error () : Except Unit _) else .ok _) = .ok columns at h
  split at h
  · cases h
  · exact (Except.ok.inj h).symm

/-- A column of a table that the sample catalog knows, and one of a table that it does not know. -/
def Analysis.sampleOrders : Analysis where
  descriptor := ⟨"sales", "Ship"⟩
  content := {
    resultSets := [{
      columns := [
        .leaf {
          name := "Order"
          kind := .columnRef
          sourceSchema := some "Sales"
          sourceTable := some "ORDERS"
          sourceColumn := some "id" },
        .leaf {
          name := "User"
          kind := .columnRef
          sourceSchema := some "dbo"
          sourceTable := some "Users"
          sourceColumn := some "Id" }] }] }

/-- The conditions in which the first call fails. -/
def Conditions.sampleFaulty : Conditions :=
  { Conditions.calm .sample ⟨0, 0⟩ with
    atCall := fun n _ => if n = 0 then some (.fails "down") else none }

/-- Over the provider the first enrichment learns nothing, the second one of one table, and the
third one asks for the other table only; in the build the first one fails. -/
theorem Enrichment.enrichEach_transparent_sample :
    faultyProvider.AnswersByKey Catalog.sample.columnsByKey ∧ (default : World).tables = [] ∧
    (∃ enriched,
      (enrichEach (enricherOver faultyProvider) (.replicate 3 .sampleOrders) { provider := 0 }).1 =
        [.error (), .error (), .ok enriched] ∧
      (attempt (Analysis.sampleOrders.enrich (enricherOver (ε := Unit)
        (unfailing Catalog.sample.columnsByKey))) { provider := 0 }).1 = .ok enriched) ∧
    (enrichEach (enricherOver faultyProvider) (.replicate 3 .sampleOrders)
      { provider := 0 }).2.given = ["sales.orders", "dbo.users"] ∧
    ∃ enriched enriched',
      (enrichEach (Build.tableColumns .sampleFaulty) (.replicate 3 .sampleOrders) default).1 =
        [.error (.catalog "down"), .ok enriched, .ok enriched'] ∧
      (Build.run (Analysis.sampleOrders.enrich (Build.tableColumns (.calm .sample ⟨0, 0⟩)))
        default).1 = .ok enriched := by
  obtain ⟨⟨houtcomes, -⟩, hbuilt, -⟩ :=
    enrichEach_transparent answersByKey_faultyProvider 0 .sampleFaulty (w := default) rfl
      (.replicate 3 .sampleOrders)
  refine ⟨answersByKey_faultyProvider, rfl, ?_, by decide +kernel, ?_⟩
  · obtain ⟨enriched, hrun⟩ : ∃ enriched,
        (enrichEach (enricherOver faultyProvider) (.replicate 3 .sampleOrders)
          { provider := 0 }).1 = [.error (), .error (), .ok enriched] := ⟨_, rfl⟩
    rw [hrun] at houtcomes
    exact ⟨enriched, hrun, houtcomes.get (i := 2) (by decide) (by simp) enriched rfl⟩
  · obtain ⟨enriched, enriched', hrun⟩ : ∃ enriched enriched',
        (enrichEach (Build.tableColumns .sampleFaulty) (.replicate 3 .sampleOrders) default).1 =
          [.error (.catalog "down"), .ok enriched, .ok enriched'] := ⟨_, _, rfl⟩
    rw [hrun] at hbuilt
    exact ⟨enriched, enriched', hrun, hbuilt.get (i := 1) (by decide) (by simp) enriched rfl
      (.calm .sample ⟨0, 0⟩) default (Conditions.calm_calm _ _) rfl rfl⟩

end SqlSnapshot
