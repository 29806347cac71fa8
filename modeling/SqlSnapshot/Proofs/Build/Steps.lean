import SqlSnapshot.Build.Run
import SqlSnapshot.Proofs.Build.Effects
import SqlSnapshot.Proofs.Enrichment

/-!
# Properties of the steps before the first write

Until its snapshots are written a build asks the catalog, reads the disk and changes what it has in
memory.  A property that these effects have, and that returning a value and going on preserve, is
one of every phase before.  The calls are the part that depends on the phase: the property need only
hold of those that are allowed.
-/

namespace SqlSnapshot

namespace Build

/-- Steps that only ask and remember have the property. -/
structure IsCompositional (env : Conditions) (allowed : Call → Prop)
    (P : (α : Type) → Build α → Prop) : Prop where
  pure : ∀ {α : Type} (a : α), P α (pure a)
  bind : ∀ {α β : Type} {x : Build α} {f : α → Build β}, P α x → (∀ a, P β (f a)) → P β (x >>= f)
  get : P World get
  ask : ∀ {α : Type} {call : Call} (answer : Catalog → α), allowed call → P α (ask env call answer)
  remember : ∀ (cache : World → Cache) (tables : World → TableCache),
    P PUnit (modify fun w => { w with cache := cache w, tables := tables w })

/-- Steps have the property that read the disk as well, and give up when the build is cancelled. -/
structure IsInterruptible (env : Conditions) (allowed : Call → Prop)
    (P : (α : Type) → Build α → Prop) : Prop extends IsCompositional env allowed P where
  checkCancelled : ∀ phase, P Unit (checkCancelled phase)
  read : ∀ {α : Type} (failed : α) (look : Disk → α), P α (access env failed fun d => (d, look d))


variable {env : Conditions} {allowed : Call → Prop} {P : (α : Type) → Build α → Prop}

namespace IsInterruptible

/-! ## Selecting -/

section Selecting

variable (hP : IsInterruptible env allowed P)
  (hallowed : ∀ call : Call, call.readsContent = false → allowed call)
include hP hallowed

theorem dateOf
    (g : ReferenceGraph) (dates : Dates) (kind : DependencyKind) (e : DependencyEdge) :
    P _ (dateOf env g dates kind e) := by
  unfold Build.dateOf
  dsimp only
  split
  · exact hP.pure _
  · split
    · exact hP.pure _
    · apply hP.bind (hP.checkCancelled .collect)
      intro _
      exact hP.bind (hP.ask _ (hallowed _ rfl)) fun _ => hP.pure _

theorem dependenciesAlong
    (g : ReferenceGraph) (ownKey : String) (dates : Dates) (es : List DependencyEdge) :
    P _ (dependenciesAlong env g ownKey dates es) := by
  induction es generalizing dates with
  | nil => exact hP.pure _
  | cons e es ih =>
    rw [Build.dependenciesAlong]
    split
    · exact ih dates
    · split
      · exact ih dates
      · apply hP.bind (hP.dateOf hallowed g dates _ e)
        intro found
        exact hP.bind (ih found.2) fun _ => hP.pure _

omit hallowed in
theorem decide
    (o : Options) (p : ProcedureRow) (dependencies : List Dependency)
    (cached : Option CacheEntry) :
    P _ (decide env o p dependencies cached) := by
  unfold Build.decide
  split
  · exact hP.pure _
  · split
    · apply hP.bind (hP.read _ _)
      intro found
      split
      · exact hP.pure _
      · exact hP.pure _
    · exact hP.pure _

theorem collectAll
    (o : Options) (g : ReferenceGraph) (dates : Dates) (names : List Descriptor) :
    P _ (collectAll env o g dates names) := by
  induction names generalizing dates with
  | nil => exact hP.pure _
  | cons d names ih =>
    simp only [Build.collectAll]
    split
    · exact ih dates
    · refine hP.bind (hP.bind (hP.dependenciesAlong hallowed g _ dates _) ?_) ?_
      · intro found
        apply hP.bind hP.get
        intro w
        exact hP.bind (hP.decide o _ _ _) fun _ => hP.pure _
      · intro one
        exact hP.bind (ih one.2) fun _ => hP.pure _

theorem collect
    (o : Options) :
    P _ (collect env o) := by
  apply hP.bind (hP.checkCancelled .collect)
  intro _
  apply hP.bind (hP.ask _ (hallowed _ rfl))
  intro rows
  apply hP.bind (hP.checkCancelled .collect)
  intro _
  apply hP.bind (hP.ask _ (hallowed _ rfl))
  intro edges
  apply hP.bind (hP.checkCancelled .collect)
  intro _
  exact hP.bind (hP.collectAll hallowed o _ _ _) fun _ => hP.pure _

theorem selectPhase
    (hreport : ∀ items notes, P _ (report env .collect items notes)) (o : Options) :
    P _ (selectPhase env o) := by
  apply hP.bind
  · apply hP.bind (hP.read _ _)
    intro content
    exact hP.remember (fun _ => Cache.load o content) fun _ => []
  · intro _
    apply hP.bind (hP.collect hallowed o)
    intro found
    apply hP.bind (hreport _ _)
    intro _
    exact hP.bind (hP.checkCancelled .collect) fun _ => hP.pure found

end Selecting

/-! ## Reusing and analyzing -/

section Analyzing

variable (hP : IsInterruptible env allowed P)
include hP

theorem reusePhase
    (hreport : ∀ items notes, P _ (report env .recordReuse items notes)) (found : Collection) :
    P _ (reusePhase env found) := by
  refine hP.bind (hP.remember (fun w => _) fun w => w.tables) ?_
  intro _
  apply hP.bind (hreport _ _)
  intro _
  exact hP.checkCancelled .recordReuse

theorem inputsOf
    (hallowed : ∀ d, allowed (.procedureDefinition d)) (items : List CollectionItem) :
    P _ (inputsOf env items) := by
  induction items with
  | nil => exact hP.pure _
  | cons i items ih =>
    apply hP.bind (hP.checkCancelled .analyze)
    intro _
    apply hP.bind (hP.ask _ (hallowed _))
    intro definition
    exact hP.bind ih fun _ => hP.pure _

theorem analyzePhase
    (hallowed : ∀ d, allowed (.procedureDefinition d))
    (hanalyze : ∀ inputs, P _ (MonadState.get >>= fun w : World =>
      analyzePhase.liftExcept (AnalysisInput.analyzeAll w.cancelled inputs)))
    (hreport : ∀ items notes, P _ (report env .analyze items notes)) (found : Collection) :
    P _ (analyzePhase env found) := by
  apply hP.bind (hP.inputsOf hallowed _)
  intro inputs
  rw [← bind_assoc]
  apply hP.bind (hanalyze inputs)
  intro results
  apply hP.bind (hreport _ _)
  intro _
  exact hP.bind (hP.checkCancelled .analyze) fun _ => hP.pure results

end Analyzing

end IsInterruptible

namespace IsCompositional

/-! ## Enriching -/

section Enriching

variable (hP : IsCompositional env allowed P)
include hP

theorem tableColumns
    (hallowed : ∀ schema table, allowed (.tableColumns schema table)) (schema table : String) :
    P _ (tableColumns env schema table) := by
  apply hP.bind hP.get
  intro w
  split
  · exact hP.pure _
  · apply hP.bind (hP.ask _ (hallowed schema table))
    intro columns
    exact hP.bind (hP.remember (fun w => w.cache) fun w => _) fun _ => hP.pure columns

theorem isSimulation : Enrichment.IsSimulation (m := Build) (n := Id) fun α step _ => P α step where
  pure := fun a => hP.pure a
  bind := fun hx hf => hP.bind hx hf

theorem enrichAll
    (hallowed : ∀ schema table, allowed (.tableColumns schema table)) (as : List Analysis) :
    P _ (enrichAll env as) := by
  induction as with
  | nil => exact hP.pure _
  | cons a as ih =>
    have hone : P _ (a.enrich (Build.tableColumns env)) :=
      @Enrichment.IsSimulation.enrich Build Id _ _ _ _ (fun _ _ => Pure.pure none)
        hP.isSimulation a fun b _ => hP.tableColumns hallowed _ _
    apply hP.bind hone
    intro one
    exact hP.bind ih fun _ => hP.pure _

end Enriching

end IsCompositional

/-! ## Success -/

variable {env : Conditions} {allowed : Call → Prop}

theorem isInterruptible_succeeds
    (hcalls : ∀ n call, allowed call → env.atCall n call = none)
    (hdisk : ∀ n, env.diskFails n = false) :
    IsInterruptible env allowed fun _ step => Succeeds step where
  pure := fun a => succeeds_pure a
  bind := fun hx hf => succeeds_bind hx hf
  get := succeeds_get
  ask := fun answer hcall => succeeds_ask (fun n => hcalls n _ hcall) answer
  remember := fun _ _ => succeeds_modify fun _ => rfl
  checkCancelled := succeeds_checkCancelled
  read := fun failed _ => succeeds_access hdisk failed _

theorem isInterruptible_of_calm
    (hcalm : env.Calm) :
    IsInterruptible env (fun _ => True) fun _ step => Succeeds step :=
  isInterruptible_succeeds (fun n call _ => hcalm.atCall n call) hcalm.diskFails

theorem succeeds_analyzeAll (inputs : List AnalysisInput) :
    Succeeds (MonadState.get >>= fun w : World =>
      analyzePhase.liftExcept (AnalysisInput.analyzeAll w.cancelled inputs)) := by
  intro w hw
  refine ⟨inputs.map AnalysisInput.analyze, w, ?_, hw⟩
  rw [run_bind_of_eq_ok (run_get w), AnalysisInput.analyzeAll, hw]
  rfl

end Build

end SqlSnapshot
