import SqlSnapshot.Proofs.Build.Complete

/-!
# What a step leaves however it ends

A step leaves its effects on the world even when it fails.  `Leaves` relates the worlds before and
after a step whatever its outcome is, and `Raises` says in which errors it can end.  Up to the first
write a build keeps the disk as it is; writing changes snapshots only, and only the disk can stop
it.
-/

namespace SqlSnapshot

namespace World

abbrev KeepsDisk (w w' : World) : Prop :=
  w'.disk = w.disk

abbrev KeepsCalls (w w' : World) : Prop :=
  w'.calls = w.calls ∧ w'.cancelled = w.cancelled

/-- Between the worlds a question for the columns of a table cancels the build. -/
def CancelledAtTable (env : Conditions) (w w' : World) : Prop :=
  ∃ n schema table, w.calls.length ≤ n ∧ w'.calls[n]? = some (.tableColumns schema table) ∧
    env.atCall n (.tableColumns schema table) = some .cancels

/-- Only a question for the columns of a table can have cancelled the build between the worlds. -/
structure AsksTables (env : Conditions) (w w' : World) : Prop where
  calls : w.calls <+: w'.calls
  cancelled : w'.cancelled = true → w.cancelled = true ∨ CancelledAtTable env w w'

/-- Between the worlds nothing changes on the disk but snapshots. -/
def WritesSnapshots (o : Options) (w w' : World) : Prop :=
  Disk.Grows (fun l => ∃ d, l = w.disk.place (o.snapshotPath d)) w.disk w'.disk

variable {env : Conditions} {o : Options}

theorem CancelledAtTable.of_prefix_left
    {w₀ w w' : World} (h : CancelledAtTable env w w') (hcalls : w₀.calls <+: w.calls) :
    CancelledAtTable env w₀ w' := by
  obtain ⟨n, schema, table, hn, hcall, hcancels⟩ := h
  exact ⟨n, schema, table, hcalls.length_le.trans hn, hcall, hcancels⟩

theorem CancelledAtTable.of_prefix_right
    {w w' w'' : World} (h : CancelledAtTable env w w') (hcalls : w'.calls <+: w''.calls) :
    CancelledAtTable env w w'' := by
  obtain ⟨n, schema, table, hn, hcall, hcancels⟩ := h
  obtain ⟨asked, hasked⟩ := hcalls
  refine ⟨n, schema, table, hn, ?_, hcancels⟩
  rw [← hasked, List.getElem?_append_left (List.getElem?_eq_some_iff.mp hcall).1]
  exact hcall

instance : IsTrans World KeepsDisk where
  trans := fun _ _ _ h₁ h₂ => h₂.trans h₁

instance : IsTrans World KeepsCalls where
  trans := fun _ _ _ h₁ h₂ => ⟨h₂.1.trans h₁.1, h₂.2.trans h₁.2⟩

instance : IsTrans World (AsksTables env) where
  trans := by
    intro w₁ w₂ w₃ h₁ h₂
    refine ⟨h₁.calls.trans h₂.calls, fun h₃ => ?_⟩
    rcases h₂.cancelled h₃ with hcancelled | hlate
    · exact (h₁.cancelled hcancelled).imp_right fun hearly => hearly.of_prefix_right h₂.calls
    · exact Or.inr (hlate.of_prefix_left h₁.calls)

instance : IsTrans World (WritesSnapshots o) where
  trans := by
    intro w₁ w₂ w₃ h₁ h₂
    apply Disk.Grows.trans h₁
    apply Disk.Grows.mono h₂
    rintro l ⟨d, hplace⟩
    exact ⟨d, hplace.trans (Disk.place_congr h₁.here _)⟩

theorem writesSnapshots_of_eq
    {w w' : World} (h : w'.disk = w.disk) :
    w.WritesSnapshots o w' := by
  rw [WritesSnapshots, h]
  exact .refl _ _

theorem WritesSnapshots.keepsFile_cacheFile
    {w w' : World} (h : w.WritesSnapshots o w') :
    w.disk.KeepsFile (w.disk.place o.cacheFile) w'.disk := by
  apply Disk.Grows.keepsFile h
  rintro ⟨d, hplace⟩
  exact o.place_cacheFile_ne w.disk d hplace

end World

namespace Build

variable {α β : Type} {env : Conditions} {o : Options} {w w' : World}

/-- However the step ends, the worlds before and after it are related. -/
def Leaves (R : World → World → Prop) (step : Build α) : Prop :=
  ∀ w, R w (run step w).2

/-- The step ends in no other errors. -/
def Raises (E : BuildError → Prop) (step : Build α) : Prop :=
  ∀ w e w', run step w = (.error e, w') → E e

section Leaves

variable {R : World → World → Prop}

theorem Leaves.of_run
    {step : Build α} {outcome : Except BuildError α} (h : Leaves R step)
    (hrun : run step w = (outcome, w')) :
    R w w' := by
  have hw := h w
  rwa [hrun] at hw

theorem leaves_bind
    [IsTrans World R] {x : Build α} {f : α → Build β} (hx : Leaves R x)
    (hf : ∀ w a w', run x w = (.ok a, w') → Leaves R (f a)) :
    Leaves R (x >>= f) := by
  intro w
  have hfirst := hx w
  rw [run_bind]
  cases hrun : run x w with
  | mk outcome w₁ =>
    rw [hrun] at hfirst
    cases outcome with
    | error e => exact hfirst
    | ok a => exact trans_of R hfirst (hf w a w₁ hrun w₁)

theorem disk_run_bind
    {x : Build α} {f : α → Build β} (hf : ∀ a, Leaves World.KeepsDisk (f a)) (w : World) :
    (run (x >>= f) w).2.disk = (run x w).2.disk := by
  rw [run_bind]
  cases run x w with
  | mk outcome w₁ =>
    cases outcome with
    | error e => rfl
    | ok a => exact hf a w₁

end Leaves

section Raises

variable {E : BuildError → Prop}

theorem raises_pure (a : α) : Raises E (pure a) := by
  intro w e w' h
  cases h

theorem raises_throw
    {e : BuildError} (he : E e) :
    Raises E (throw e : Build α) := by
  intro w e' w' h
  cases h
  exact he

theorem raises_bind
    {x : Build α} {f : α → Build β} (hx : Raises E x) (hf : ∀ a, Raises E (f a)) :
    Raises E (x >>= f) := by
  intro w e w' h
  rcases run_bind_eq_error.mp h with hrun | ⟨a, w₁, -, hrest⟩
  · exact hx w e w' hrun
  · exact hf a w₁ e w' hrest

theorem raises_access (failed : α) (act : Disk → Disk × α) : Raises E (access env failed act) := by
  intro w e w' h
  rw [run_access_eq] at h
  split at h
  · cases h
  · cases h

end Raises

/-! ## Effects -/

theorem leaves_checkCancelled
    {R : World → World → Prop} (hR : ∀ w, R w w) (phase : Phase) :
    Leaves R (checkCancelled phase) := by
  intro w
  rw [run_checkCancelled]
  exact hR w

theorem leaves_ask
    {R : World → World → Prop} {call : Call} (answer : Catalog → α)
    (hR : ∀ w, R w { w with
      calls := w.calls ++ [call]
      cancelled :=
        w.cancelled || Decidable.decide (env.atCall w.calls.length call = some .cancels) }) :
    Leaves R (ask env call answer) := by
  intro w
  have hw := hR w
  rw [ask, run_bind_of_eq_ok (run_get w), run_bind_of_eq_ok (run_modify _ w)]
  split
  · rename_i reason hfails
    simpa [hfails] using hw
  · rename_i hcancels
    rw [decide_eq_true hcancels, Bool.or_true] at hw
    exact hw
  · rename_i hnone
    simpa [hnone] using hw

theorem leaves_access
    {R : World → World → Prop} (failed : α) (act : Disk → Disk × α)
    (hR : ∀ w disk, disk = w.disk ∨ disk = (act w.disk).1 →
      R w { w with accesses := w.accesses + 1, disk }) :
    Leaves R (access env failed act) := by
  intro w
  rw [run_access_eq]
  split
  · exact hR w w.disk (Or.inl rfl)
  · exact hR w _ (Or.inr rfl)

/-! ## Before the first write -/

section Reads

variable {R : World → World → Prop} [IsTrans World R] (hR : ∀ w w', w'.disk = w.disk → R w w')
include hR

theorem isInterruptible_leaves :
    IsInterruptible env (fun _ => True) fun _ step => Leaves R step where
  pure := fun _ w => hR w w rfl
  bind := fun hx hf => leaves_bind hx fun _ a _ _ => hf a
  get := fun w => hR w w rfl
  ask := fun answer _ => leaves_ask answer fun _ => hR _ _ rfl
  remember := fun _ _ _ => hR _ _ rfl
  checkCancelled := leaves_checkCancelled fun w => hR w w rfl
  read := fun failed _ => leaves_access failed _ fun _ _ hdisk => hR _ _ (or_self_iff.mp hdisk)

omit [IsTrans World R] in
theorem leaves_report
    (phase : Phase) (items : Nat) (notes : Option String) :
    Leaves R (report env phase items notes) :=
  fun _ => hR _ _ rfl

theorem leaves_selectPhase (o : Options) : Leaves R (selectPhase env o) :=
  (isInterruptible_leaves hR).selectPhase (fun _ _ => trivial) (leaves_report hR .collect) o

theorem leaves_reusePhase (found : Collection) : Leaves R (reusePhase env found) :=
  (isInterruptible_leaves hR).reusePhase (leaves_report hR .recordReuse) found

theorem leaves_analyzePhase (found : Collection) : Leaves R (analyzePhase env found) := by
  refine (isInterruptible_leaves hR).analyzePhase (fun _ => trivial) ?_
    (leaves_report hR .analyze) found
  intro inputs w
  rw [run_bind_of_eq_ok (run_get w), AnalysisInput.analyzeAll]
  split
  · exact hR w w rfl
  · exact hR w w rfl

theorem leaves_prepare (o : Options) : Leaves R (prepare env o) := by
  refine leaves_bind (leaves_selectPhase hR o) ?_
  intro _ found _ _
  refine leaves_bind (leaves_reusePhase hR found) ?_
  intro _ _ _ _
  refine leaves_bind (leaves_analyzePhase hR found) ?_
  intro _ results _ _
  exact fun w => hR w w rfl

theorem leaves_enrichAll (as : List Analysis) : Leaves R (enrichAll env as) :=
  (isInterruptible_leaves hR).enrichAll (fun _ _ => trivial) as

theorem leaves_fingerprint
    (path : String) (digest : List (String × ByteArray) → String) :
    Leaves R (Build.fingerprint env path digest) := by
  refine leaves_bind ((isInterruptible_leaves hR).read _ _) ?_
  intro _ outcome _ _ w
  split
  · exact hR w w rfl
  · exact hR w w rfl
  · exact hR w w rfl

end Reads

theorem isCompositional_asksTables (env : Conditions) :
    IsCompositional env (fun call => ∃ schema table, call = .tableColumns schema table)
      fun _ step => Leaves (World.AsksTables env) step where
  pure := fun _ w => ⟨List.prefix_refl _, Or.inl⟩
  bind := fun hx hf => leaves_bind hx fun _ a _ _ => hf a
  get := fun w => ⟨List.prefix_refl _, Or.inl⟩
  remember := fun _ _ w => ⟨List.prefix_refl _, Or.inl⟩
  ask := by
    rintro α call answer ⟨schema, table, rfl⟩
    apply leaves_ask
    intro w
    refine ⟨List.prefix_append _ _, fun hcancelled => ?_⟩
    rcases Bool.or_eq_true_iff.mp hcancelled with hbefore | hcancels
    · exact Or.inl hbefore
    · refine Or.inr ⟨w.calls.length, schema, table, le_rfl, ?_, of_decide_eq_true hcancels⟩
      exact List.getElem?_concat_length

theorem asksTables_enrichAll
    (env : Conditions) (as : List Analysis) :
    Leaves (World.AsksTables env) (enrichAll env as) :=
  (isCompositional_asksTables env).enrichAll (fun schema table => ⟨schema, table, rfl⟩) as

/-! ## Writing -/

theorem leaves_writeEach
    {R : World → World → Prop} [IsTrans World R] {as : List Analysis}
    (hR : ∀ w disk, disk = w.disk ∨ (∃ a ∈ as, ∃ content, disk =
      (w.disk.replaceFile o.schemaDirectory (Snapshot.fileName a.descriptor) content).1) →
        R w { w with accesses := w.accesses + 1, disk })
    (hrefl : ∀ w, R w w) :
    Leaves R (writeEach env o.schemaDirectory as) := by
  induction as with
  | nil => exact hrefl
  | cons a as ih =>
    have hrest : Leaves R (writeEach env o.schemaDirectory as) := by
      apply ih
      rintro w disk (hdisk | ⟨b, hb, hdisk⟩)
      · exact hR w disk (Or.inl hdisk)
      · exact hR w disk (Or.inr ⟨b, List.mem_cons_of_mem a hb, hdisk⟩)
    have hread : Leaves R (contentOf env
        (Path.join o.schemaDirectory (Snapshot.fileName a.descriptor))) :=
      leaves_access _ _ fun w disk hdisk => hR w disk (Or.inl (or_self_iff.mp hdisk))
    have hreplace : Leaves R (replaceFile env o.schemaDirectory (Snapshot.fileName a.descriptor)
        (Snapshot.ofAnalysis a).canonicalBytes) :=
      leaves_access _ _ fun w disk hdisk =>
        hR w disk (hdisk.imp_right fun heq => ⟨a, List.mem_cons_self, _, heq⟩)
    rw [writeEach]
    refine leaves_bind hread ?_
    intro _ content _ _
    split
    · exact leaves_bind hrest fun _ _ _ _ => hrefl
    · refine leaves_bind hreplace ?_
      intro _ replaced _ _
      cases replaced with
      | true => exact leaves_bind hrest fun _ _ _ _ => hrefl
      | false => exact hrefl

theorem leaves_writeSnapshots
    {R : World → World → Prop} [IsTrans World R] {as : List Analysis}
    (hR : ∀ w disk, disk = w.disk ∨ disk = (w.disk.makeDirectories o.schemaDirectory).1 ∨
      (∃ a ∈ as, ∃ content, disk =
        (w.disk.replaceFile o.schemaDirectory (Snapshot.fileName a.descriptor) content).1) →
          R w { w with accesses := w.accesses + 1, disk })
    (hrefl : ∀ w, R w w) :
    Leaves R (writeSnapshots env o as) := by
  have hmake : Leaves R (makeDirectories env o.schemaDirectory) :=
    leaves_access _ _ fun w disk hdisk => hR w disk (hdisk.imp_right Or.inl)
  refine leaves_bind hmake ?_
  intro _ made _ _
  cases made with
  | true => exact leaves_writeEach (fun w disk hdisk => hR w disk (hdisk.imp_right Or.inr)) hrefl
  | false => exact hrefl

theorem keepsCalls_writeSnapshots
    (env : Conditions) (o : Options) (as : List Analysis) :
    Leaves World.KeepsCalls (writeSnapshots env o as) :=
  leaves_writeSnapshots (fun _ _ _ => ⟨rfl, rfl⟩) fun _ => ⟨rfl, rfl⟩

theorem writesSnapshots_writeSnapshots
    (env : Conditions) (o : Options) (as : List Analysis) :
    Leaves (World.WritesSnapshots o) (writeSnapshots env o as) := by
  refine leaves_writeSnapshots ?_ fun w => .refl _ _
  rintro w disk (rfl | rfl | ⟨a, ha, content, rfl⟩)
  · exact .refl _ _
  · exact Disk.grows_makeDirectories _ _ _
  · have hgrows : Disk.Grows (· = w.disk.place (o.snapshotPath a.descriptor)) w.disk _ :=
      Disk.grows_replaceFile o.isPlain_stateDirectory Options.isName_schema
        (Snapshot.isName_fileName a.descriptor) w.disk content
    exact hgrows.mono fun l hl => ⟨a.descriptor, hl⟩

theorem writesSnapshots_writePhase
    (env : Conditions) (o : Options) (results : List Analysis) :
    Leaves (World.WritesSnapshots o) (writePhase env o results) := by
  have hkept : ∀ w w' : World, w'.disk = w.disk → w.WritesSnapshots o w' :=
    fun _ _ => World.writesSnapshots_of_eq
  refine leaves_bind (leaves_enrichAll hkept results) ?_
  rintro _ ⟨enriched, issues⟩ _ _
  refine leaves_bind (writesSnapshots_writeSnapshots env o enriched) ?_
  intro _ written _ _
  refine leaves_bind (leaves_report hkept .write _ _) ?_
  intro _ _ _ _
  refine leaves_bind (leaves_checkCancelled (fun w => hkept w w rfl) .write) ?_
  exact fun _ _ _ _ w => hkept w w rfl

theorem raises_writeSnapshots
    (env : Conditions) (o : Options) (as : List Analysis) :
    Raises (fun e => ∃ path, e = .io path) (writeSnapshots env o as) := by
  refine raises_bind (raises_access _ _) ?_
  intro made
  cases made with
  | false => exact raises_throw ⟨_, rfl⟩
  | true =>
    induction as with
    | nil => exact raises_pure _
    | cons a as ih =>
      rw [if_pos rfl] at ih ⊢
      refine raises_bind (raises_access _ _) ?_
      intro content
      split
      · exact raises_bind ih fun _ => raises_pure _
      · refine raises_bind (raises_access _ _) ?_
        intro replaced
        cases replaced with
        | true => exact raises_bind ih fun _ => raises_pure _
        | false => exact raises_throw ⟨_, rfl⟩

/-! ## The end of a build -/

theorem raises_flush
    (env : Conditions) (c : Cache) :
    Raises (fun _ => False) (c.flush (replaceFile env)) := by
  unfold Cache.flush
  split
  · exact raises_pure _
  · split
    · exact raises_pure _
    · refine raises_bind (raises_access _ _) ?_
      intro stored
      cases stored with
      | true => exact raises_pure _
      | false => exact raises_pure _

theorem raises_flushCache
    (env : Conditions) (written : WrittenSnapshots) :
    Raises (fun _ => False) (flushCache env written) := by
  intro w e w' h
  rw [flushCache, run_bind_of_eq_ok (run_get w)] at h
  rcases run_bind_eq_error.mp h with hflush | ⟨_, w₁, -, hrest⟩
  · exact raises_flush env _ w e w' hflush
  · cases hrest

/-- A build that does not write its cache file changes snapshots only. -/
theorem writesSnapshots_untilFlushed
    {outcome : Except BuildError CompletedBuild}
    (h : run (untilFlushed env o) w = (outcome, w'))
    (hlost : ∀ b, outcome = .ok b → b.flushed = .failed) :
    w.WritesSnapshots o w' := by
  have hprepares : Leaves (World.WritesSnapshots o) (prepare env o) :=
    leaves_prepare (fun _ _ => World.writesSnapshots_of_eq) o
  cases outcome with
  | error e =>
    rcases run_bind_eq_error.mp h with hprepare | ⟨⟨found, results⟩, w₁, hprepare, h⟩
    · exact hprepares.of_run hprepare
    · rcases run_bind_eq_error.mp h with hwrite | ⟨⟨written, issues⟩, w₂, -, h⟩
      · exact trans_of _ (hprepares.of_run hprepare)
          ((writesSnapshots_writePhase env o results).of_run hwrite)
      · rcases run_bind_eq_error.mp h with hflush | ⟨flushed, w₃, -, h⟩
        · exact (raises_flushCache env written w₂ e w' hflush).elim
        · cases h
  | ok b =>
    have hfailed := hlost b rfl
    obtain ⟨⟨found, results⟩, w₁, hprepare, h⟩ := run_bind_eq_ok.mp h
    obtain ⟨⟨written, issues⟩, w₂, hwrite, h⟩ := run_bind_eq_ok.mp h
    obtain ⟨flushed, w₃, hflush, h⟩ := run_bind_eq_ok.mp h
    cases h
    subst hfailed
    -- A replacement that fails can still have made directories, but no file.
    obtain ⟨content, hprepared⟩ := prepare_eq_ok hprepare
    obtain ⟨-, -, -, -, hcache, -⟩ := writePhase_eq_ok hprepared.tablesAgree hwrite
    have hwrites := trans_of _ (hprepares.of_run hprepare)
      ((writesSnapshots_writePhase env o results).of_run hwrite)
    exact Disk.Grows.trans hwrites
      (flushCache_eq_failed (hcache ▸ hprepared.cacheDirectory) hflush _)

theorem raises_fingerprint
    (env : Conditions) (path : String) (digest : List (String × ByteArray) → String) :
    Raises (· = .io path) (Build.fingerprint env path digest) := by
  refine raises_bind (raises_access _ _) ?_
  intro outcome
  split
  · exact raises_pure _
  · exact raises_pure _
  · exact raises_throw rfl

end Build

end SqlSnapshot
