import SqlSnapshot.Build.Effects

/-!
# What the effects of a build come to

A step that succeeds is taken apart at its binds: `run_bind_eq_ok` gives the outcomes of its parts.
Each effect has one lemma on what it leaves when it succeeds, whatever the conditions.  `Calm` are
the conditions in which nothing fails from outside, and there an effect succeeds.
-/

namespace SqlSnapshot

namespace Call

/-- The call asks for a definition or for the columns of a table. -/
def readsContent : Call → Bool
  | .procedureDefinition _ => true
  | .tableColumns _ _ => true
  | _ => false

end Call

/-- No call to the catalog and no access to the disk fails, and nobody cancels the build. -/
structure Conditions.Calm (env : Conditions) : Prop where
  atCall : ∀ n call, env.atCall n call = none
  diskFails : ∀ n, env.diskFails n = false
  cancelsAfter : ∀ phase, env.cancelsAfter phase = false

/-- Between the two worlds the build has only asked questions, all of them as given. -/
structure World.Asks (allowed : Call → Prop) (w w' : World) : Prop where
  disk : w'.disk = w.disk
  cache : w'.cache = w.cache
  tables : w'.tables = w.tables
  calls : ∃ asked, w'.calls = w.calls ++ asked ∧ ∀ call ∈ asked, allowed call

namespace World.Asks

variable {allowed : Call → Prop} {w w₁ w₂ : World}

theorem refl (w : World) : Asks allowed w w :=
  ⟨rfl, rfl, rfl, [], by simp, by simp⟩

theorem trans
    (h₁ : Asks allowed w w₁) (h₂ : Asks allowed w₁ w₂) :
    Asks allowed w w₂ := by
  obtain ⟨asked₁, hcalls₁, hallowed₁⟩ := h₁.calls
  obtain ⟨asked₂, hcalls₂, hallowed₂⟩ := h₂.calls
  refine ⟨h₂.disk.trans h₁.disk, h₂.cache.trans h₁.cache, h₂.tables.trans h₁.tables,
    asked₁ ++ asked₂, by rw [hcalls₂, hcalls₁, List.append_assoc], ?_⟩
  intro call hcall
  rcases List.mem_append.mp hcall with h | h
  · exact hallowed₁ call h
  · exact hallowed₂ call h

theorem mono
    {allowed' : Call → Prop} (h : Asks allowed w w₁) (himp : ∀ call, allowed call → allowed' call) :
    Asks allowed' w w₁ := by
  obtain ⟨asked, hcalls, hallowed⟩ := h.calls
  exact ⟨h.disk, h.cache, h.tables, asked, hcalls,
    fun call hcall => himp call (hallowed call hcall)⟩

theorem calls_eq
    (h : Asks allowed w w₁) (hnone : ∀ call, ¬ allowed call) :
    w₁.calls = w.calls := by
  obtain ⟨asked, hcalls, hallowed⟩ := h.calls
  have hempty : asked = [] :=
    List.eq_nil_iff_forall_not_mem.mpr fun call hcall => hnone call (hallowed call hcall)
  rw [hcalls, hempty, List.append_nil]

end World.Asks

namespace Build

variable {α β : Type} {env : Conditions} {allowed : Call → Prop} {w w' : World}

/-! ## Steps -/

@[simp]
theorem run_pure (a : α) (w : World) : run (pure a) w = (.ok a, w) := rfl

@[simp]
theorem run_throw (e : BuildError) (w : World) : run (throw e : Build α) w = (.error e, w) := rfl

@[simp]
theorem run_get (w : World) : run get w = (.ok w, w) := rfl

@[simp]
theorem run_modify (f : World → World) (w : World) : run (modify f) w = (.ok ⟨⟩, f w) := rfl

theorem run_bind (x : Build α) (f : α → Build β) (w : World) :
    run (x >>= f) w =
      match run x w with
      | (.ok a, w₁) => run (f a) w₁
      | (.error e, w₁) => (.error e, w₁) := by
  change ExceptT.bindCont f (run x w).1 (run x w).2 = _
  rcases run x w with ⟨e | a, w₁⟩
  · rfl
  · rfl

theorem run_bind_of_eq_ok
    {x : Build α} {a : α} (h : run x w = (.ok a, w')) (f : α → Build β) :
    run (x >>= f) w = run (f a) w' := by
  rw [run_bind, h]

theorem run_bind_eq_ok
    {x : Build α} {f : α → Build β} {b : β} :
    run (x >>= f) w = (.ok b, w') ↔
      ∃ a w₁, run x w = (.ok a, w₁) ∧ run (f a) w₁ = (.ok b, w') := by
  rw [run_bind]
  rcases run x w with ⟨e | a, w₁⟩
  · simp
  · constructor
    · intro h
      exact ⟨a, w₁, rfl, h⟩
    · rintro ⟨a', w₁', heq, h⟩
      cases heq
      exact h

theorem run_bind_eq_error
    {x : Build α} {f : α → Build β} {e : BuildError} :
    run (x >>= f) w = (.error e, w') ↔
      run x w = (.error e, w') ∨
        ∃ a w₁, run x w = (.ok a, w₁) ∧ run (f a) w₁ = (.error e, w') := by
  rw [run_bind]
  rcases run x w with ⟨e' | a, w₁⟩
  · simp
  · constructor
    · intro h
      exact Or.inr ⟨a, w₁, rfl, h⟩
    · rintro (h | ⟨a', w₁', heq, h⟩)
      · cases h
      · cases heq
        exact h

/-! ## Questions -/

theorem run_checkCancelled
    (phase : Phase) (w : World) :
    run (checkCancelled phase) w =
      (if w.cancelled then .error (.cancelled phase) else .ok (), w) := by
  rw [checkCancelled, run_bind_of_eq_ok (run_get w)]
  split
  · rfl
  · rfl

theorem checkCancelled_eq_ok
    {phase : Phase} {u : Unit} (h : run (checkCancelled phase) w = (.ok u, w')) :
    w' = w := by
  rw [run_checkCancelled] at h
  exact (congrArg Prod.snd h).symm

theorem checkCancelled_eq_error
    {phase : Phase} {e : BuildError} (h : run (checkCancelled phase) w = (.error e, w')) :
    e = .cancelled phase ∧ w.cancelled = true ∧ w' = w := by
  rw [run_checkCancelled] at h
  cases hcancelled : w.cancelled with
  | true =>
    rw [hcancelled] at h
    cases h
    exact ⟨rfl, rfl, rfl⟩
  | false =>
    rw [hcancelled] at h
    cases h

theorem cancelled_of_checkCancelled
    {phase : Phase} {u : Unit} (h : run (checkCancelled phase) w = (.ok u, w')) :
    w.cancelled = false := by
  rw [run_checkCancelled] at h
  cases hcancelled : w.cancelled with
  | true =>
    rw [hcancelled] at h
    cases h
  | false => rfl

theorem eq_ok_of_checkCancelled
    {phase : Phase} {f : Unit → Build α} {a : α}
    (h : run (checkCancelled phase >>= f) w = (.ok a, w')) :
    run (f ()) w = (.ok a, w') := by
  obtain ⟨u, w₁, hcheck, hrest⟩ := run_bind_eq_ok.mp h
  rwa [checkCancelled_eq_ok hcheck] at hrest

theorem ask_eq_ok
    {call : Call} {answer : Catalog → α} {a : α}
    (h : run (ask env call answer) w = (.ok a, w')) :
    a = answer env.catalog ∧ w'.calls = w.calls ++ [call] ∧ w'.disk = w.disk ∧
      w'.cache = w.cache ∧ w'.tables = w.tables := by
  obtain ⟨v, w₁, hget, h⟩ := run_bind_eq_ok.mp h
  cases hget
  obtain ⟨_, w₁, hmodify, h⟩ := run_bind_eq_ok.mp h
  cases hmodify
  dsimp only at h
  split at h
  · simp at h
  · obtain ⟨_, w₁, hmodify, h⟩ := run_bind_eq_ok.mp h
    cases hmodify
    cases h
    exact ⟨rfl, rfl, rfl, rfl, rfl⟩
  · cases h
    exact ⟨rfl, rfl, rfl, rfl, rfl⟩

theorem asks_of_ask
    {call : Call} {answer : Catalog → α} {a : α} (hcall : allowed call)
    (h : run (ask env call answer) w = (.ok a, w')) :
    World.Asks allowed w w' := by
  obtain ⟨-, hcalls, hdisk, hcache, htables⟩ := ask_eq_ok h
  exact ⟨hdisk, hcache, htables, [call], hcalls, by simpa using hcall⟩

/-! ## Accesses -/

theorem run_access_eq
    (env : Conditions) (failed : α) (act : Disk → Disk × α) (w : World) :
    run (access env failed act) w =
      if env.diskFails w.accesses then (.ok failed, { w with accesses := w.accesses + 1 })
      else (.ok (act w.disk).2, { w with accesses := w.accesses + 1, disk := (act w.disk).1 }) := by
  rw [access, run_bind_of_eq_ok (run_get w)]
  split
  · rfl
  · rfl

theorem exists_run_replaceFile
    (env : Conditions) (directory name : String) (content : ByteArray) (w : World) :
    ∃ replaced w', run (replaceFile env directory name content) w = (.ok replaced, w') ∧
      w'.accesses = w.accesses + 1 := by
  rw [replaceFile, run_access_eq]
  split
  · exact ⟨_, _, rfl, rfl⟩
  · exact ⟨_, _, rfl, rfl⟩

theorem access_eq_ok
    {failed a : α} {act : Disk → Disk × α} (h : run (access env failed act) w = (.ok a, w')) :
    (env.diskFails w.accesses = true ∧ a = failed ∧ w'.disk = w.disk ∨
      env.diskFails w.accesses = false ∧ a = (act w.disk).2 ∧ w'.disk = (act w.disk).1) ∧
    w'.calls = w.calls ∧ w'.cache = w.cache ∧ w'.tables = w.tables := by
  rw [run_access_eq] at h
  split at h
  · rename_i hfails
    cases h
    exact ⟨Or.inl ⟨hfails, rfl, rfl⟩, rfl, rfl, rfl⟩
  · rename_i hworks
    cases h
    exact ⟨Or.inr ⟨eq_false_of_ne_true hworks, rfl, rfl⟩, rfl, rfl, rfl⟩

theorem asks_of_access
    {failed a : α} {act : Disk → Disk × α} (hact : ∀ d, (act d).1 = d)
    (h : run (access env failed act) w = (.ok a, w')) :
    World.Asks allowed w w' := by
  obtain ⟨hdisk, hcalls, hcache, htables⟩ := access_eq_ok h
  refine ⟨?_, hcache, htables, [], by simp [hcalls], by simp⟩
  rcases hdisk with ⟨-, -, hdisk⟩ | ⟨-, -, hdisk⟩
  · exact hdisk
  · rw [hdisk, hact]

theorem contentOf_eq_ok
    (allowed : Call → Prop) {path : String} {content : Option ByteArray}
    (h : run (contentOf env path) w = (.ok content, w')) :
    (content = none ∧ (∃ n, env.diskFails n = true) ∨ content = (w.disk.contentOf path).toOption) ∧
      World.Asks allowed w w' := by
  refine ⟨?_, asks_of_access (fun _ => rfl) h⟩
  rcases (access_eq_ok h).1 with ⟨hfails, rfl, -⟩ | ⟨-, rfl, -⟩
  · exact Or.inl ⟨rfl, _, hfails⟩
  · exact Or.inr rfl

theorem isFile_eq_ok
    (allowed : Call → Prop) {path : String} {found : Bool}
    (h : run (isFile env path) w = (.ok found, w')) :
    (found = false ∧ (∃ n, env.diskFails n = true) ∨ found = w.disk.isFile path) ∧
      World.Asks allowed w w' := by
  refine ⟨?_, asks_of_access (fun _ => rfl) h⟩
  rcases (access_eq_ok h).1 with ⟨hfails, rfl, -⟩ | ⟨-, rfl, -⟩
  · exact Or.inl ⟨rfl, _, hfails⟩
  · exact Or.inr rfl

theorem report_eq_ok
    {phase : Phase} {items : Nat} {notes : Option String} {u : Unit}
    (h : run (report env phase items notes) w = (.ok u, w')) :
    World.Asks allowed w w' := by
  cases h
  exact ⟨rfl, rfl, rfl, [], by simp, by simp⟩

/-! ## Success -/

/-- The step succeeds whenever the build is not cancelled, and does not cancel it. -/
def Succeeds (step : Build α) : Prop :=
  ∀ w : World, w.cancelled = false → ∃ a w', run step w = (.ok a, w') ∧ w'.cancelled = false

theorem succeeds_pure (a : α) : Succeeds (pure a) := by
  intro w hw
  exact ⟨a, w, rfl, hw⟩

theorem succeeds_bind
    {x : Build α} {f : α → Build β} (hx : Succeeds x) (hf : ∀ a, Succeeds (f a)) :
    Succeeds (x >>= f) := by
  intro w hw
  obtain ⟨a, w₁, hrun, hw₁⟩ := hx w hw
  obtain ⟨b, w₂, hrun', hw₂⟩ := hf a w₁ hw₁
  exact ⟨b, w₂, run_bind_eq_ok.mpr ⟨a, w₁, hrun, hrun'⟩, hw₂⟩

theorem succeeds_get : Succeeds get := by
  intro w hw
  exact ⟨w, w, rfl, hw⟩

theorem succeeds_modify
    {f : World → World} (hf : ∀ w, (f w).cancelled = w.cancelled) :
    Succeeds (modify f) := by
  intro w hw
  exact ⟨_, f w, rfl, (hf w).trans hw⟩

theorem succeeds_checkCancelled (phase : Phase) : Succeeds (checkCancelled phase) := by
  intro w hw
  refine ⟨(), w, ?_, hw⟩
  rw [run_checkCancelled, hw]
  rfl

theorem run_ask
    {call : Call} {n : Nat} (hn : w.calls.length = n) (hcall : env.atCall n call = none)
    (answer : Catalog → α) :
    run (ask env call answer) w =
      (.ok (answer env.catalog), { w with calls := w.calls ++ [call] }) := by
  rw [ask, run_bind_of_eq_ok (run_get w), run_bind_of_eq_ok (run_modify _ w)]
  simp [hn, hcall]

theorem succeeds_ask
    {call : Call} (hcall : ∀ n, env.atCall n call = none) (answer : Catalog → α) :
    Succeeds (ask env call answer) := by
  intro w hw
  exact ⟨_, _, run_ask rfl (hcall _) answer, hw⟩

theorem run_access
    (hworks : env.diskFails w.accesses = false) (failed : α) (act : Disk → Disk × α) :
    run (access env failed act) w =
      (.ok (act w.disk).2, { w with accesses := w.accesses + 1, disk := (act w.disk).1 }) := by
  rw [run_access_eq, if_neg (ne_true_of_eq_false hworks)]

theorem succeeds_access
    (hdisk : ∀ n, env.diskFails n = false) (failed : α) (act : Disk → Disk × α) :
    Succeeds (access env failed act) := by
  intro w hw
  exact ⟨_, _, run_access (hdisk _) failed act, hw⟩

theorem succeeds_report
    {phase : Phase} (hphase : env.cancelsAfter phase = false) (items : Nat)
    (notes : Option String) :
    Succeeds (report env phase items notes) := by
  intro w hw
  refine ⟨_, _, run_modify _ w, ?_⟩
  simp [hw, hphase]

end Build

end SqlSnapshot
