import SqlSnapshot.Proofs.Build.Written

/-!
# Which files a batch changes

A batch of snapshots is compared file by file with what is on the disk.  The files that do not hold
their snapshot yet are put in place, in the order of the batch, and nothing else is written.  Where
a file cannot be put in place, the batch ends as if the files before it had been all.
-/

namespace SqlSnapshot

/-- The file of the snapshot is there, byte for byte. -/
def Disk.Holds (d : Disk) (o : Options) (a : Analysis) : Prop :=
  d.node? (d.place (o.snapshotPath a.descriptor)) =
    some (.file (Snapshot.ofAnalysis a).canonicalBytes)

namespace Build

variable {env : Conditions} {o : Options} {a : Analysis} {as : List Analysis} {w w₁ w' : World}

/-- The disk after the snapshots were put in place one after the other. -/
def putInPlace (o : Options) (d : Disk) (as : List Analysis) : Disk :=
  as.foldl (fun d a => (d.replaceFile o.schemaDirectory (Snapshot.fileName a.descriptor)
    (Snapshot.ofAnalysis a).canonicalBytes).1) d

/-! ## One snapshot -/

/-- What becomes of a snapshot, and whether its file is put in place. -/
inductive Writes (env : Conditions) (o : Options) (a : Analysis) (w w₁ : World) : Bool → Prop
  | kept
      (holds : w.disk.Holds o a)
      (disk : w₁.disk = w.disk)
      (accesses : w₁.accesses = w.accesses + 1) :
      Writes env o a w w₁ false
  | replaced
      (differs : w.disk.Holds o a → env.diskFails w.accesses = true)
      (disk : w.disk.replaceFile o.schemaDirectory (Snapshot.fileName a.descriptor)
        (Snapshot.ofAnalysis a).canonicalBytes = (w₁.disk, .ok ()))
      (accesses : w₁.accesses = w.accesses + 2) :
      Writes env o a w w₁ true

/-- The result with one more snapshot in front. -/
def addWritten (a : Analysis) (rewritten : Bool) (rest : WrittenSnapshots) : WrittenSnapshots :=
  if rewritten then rest.addUpdated (withSnapshot a) else rest.addUnchanged (withSnapshot a)

theorem updated_addWritten
    (a : Analysis) (rewritten : Bool) (rest : WrittenSnapshots) :
    (addWritten a rewritten rest).updated =
      if rewritten then withSnapshot a :: rest.updated else rest.updated := by
  cases rewritten with
  | false => rfl
  | true => rfl

theorem unchanged_addWritten
    (a : Analysis) (rewritten : Bool) (rest : WrittenSnapshots) :
    (addWritten a rewritten rest).unchanged =
      if rewritten then rest.unchanged else withSnapshot a :: rest.unchanged := by
  cases rewritten with
  | false => rfl
  | true => rfl

theorem exists_run_contentOf (env : Conditions) (path : String) (w : World) :
    ∃ content, run (contentOf env path) w =
        (.ok content, { w with accesses := w.accesses + 1 }) ∧
      (content = (w.disk.contentOf path).toOption ∨
        content = none ∧ env.diskFails w.accesses = true) := by
  rw [contentOf, run_access_eq]
  split
  · rename_i hfails
    exact ⟨none, rfl, Or.inr ⟨rfl, hfails⟩⟩
  · exact ⟨_, rfl, Or.inl rfl⟩

theorem holds_of_contentOf
    {d : Disk} (h : d.contentOf (o.snapshotPath a.descriptor) =
      .ok (Snapshot.ofAnalysis a).canonicalBytes) :
    d.Holds o a := by
  obtain ⟨l, hresolve, hnode⟩ := Disk.contentOf_eq_ok_iff.mp h
  rwa [Disk.Holds, ← Disk.eq_place_of_resolve hresolve]

/-- Where the file can be put in place, it can be read. -/
theorem contentOf_of_holds
    {d d' : Disk} (hthere : d.HasDirectory o.schemaDirectory) (h : d.Holds o a)
    (hreplaced : d.replaceFile o.schemaDirectory (Snapshot.fileName a.descriptor)
      (Snapshot.ofAnalysis a).canonicalBytes = (d', .ok ())) :
    d.contentOf (o.snapshotPath a.descriptor) = .ok (Snapshot.ofAnalysis a).canonicalBytes := by
  have hname := Snapshot.isName_fileName a.descriptor
  have hplain := o.isPlain_schemaDirectory
  rw [Disk.replaceFile, hthere.makeDirectories_eq] at hreplaced
  dsimp only at hreplaced
  split at hreplaced
  · cases hreplaced
  · rename_i hrefused
    simp only [not_or, Bool.not_eq_true', Bool.not_eq_false] at hrefused
    obtain ⟨-, husable, hlimit, -⟩ := hrefused
    obtain ⟨-, l, hwalk, hdir⟩ := hthere
    have hl : l = d.place o.schemaDirectory := Disk.eq_foldl_of_walk hwalk
    have hplace :
        d.place (o.snapshotPath a.descriptor) = l ++ [Snapshot.fileName a.descriptor] := by
      rw [Options.snapshotPath, Disk.place_join d hplain hname, hl]
    refine Disk.contentOf_eq_ok_iff.mpr ⟨_, Disk.resolve_eq_ok_iff.mpr
      ⟨(Path.isPlain_join _ hname).isEmpty_eq, husable, ?_⟩, h⟩
    rw [hplace, Options.snapshotPath, Disk.origin_join d hplain hname,
      Path.names_join hplain hname, Disk.walk_append_eq_ok_iff hwalk, Disk.walk_cons_eq_ok_iff,
      Disk.next_name hname]
    exact ⟨hdir, Or.inr (Or.inr (Nat.le_of_not_lt hlimit)), rfl⟩

/-- One snapshot is written and the rest goes on from there, or the batch ends with it. -/
theorem writeEach_cons
    (env : Conditions) (hthere : w.disk.HasDirectory o.schemaDirectory) (a : Analysis) :
    (∃ rewritten w₁, Writes env o a w w₁ rewritten ∧ ∀ as,
      run (writeEach env o.schemaDirectory (a :: as)) w =
        ((run (writeEach env o.schemaDirectory as) w₁).1.map (addWritten a rewritten),
          (run (writeEach env o.schemaDirectory as) w₁).2)) ∨
    ∃ w', (∀ changed, Disk.Grows changed w.disk w'.disk) ∧ ∀ as,
      run (writeEach env o.schemaDirectory (a :: as)) w =
        (.error (.io (o.snapshotPath a.descriptor)), w') := by
  obtain ⟨content, hread, hcontent⟩ :=
    exists_run_contentOf env (o.snapshotPath a.descriptor) w
  rw [Options.snapshotPath] at hread
  by_cases hsame : (content == some (Snapshot.ofAnalysis a).canonicalBytes) = true
  · refine Or.inl ⟨false, { w with accesses := w.accesses + 1 }, .kept ?_ rfl rfl, fun as => ?_⟩
    · rcases hcontent with hcontent | ⟨hnone, -⟩
      · rw [eq_some_of_beq hsame] at hcontent
        exact holds_of_contentOf (eq_ok_of_toOption hcontent.symm)
      · rw [eq_some_of_beq hsame] at hnone
        contradiction
    · rw [writeEach, run_bind_of_eq_ok hread, if_pos hsame, run_bind]
      cases run (writeEach env o.schemaDirectory as) { w with accesses := w.accesses + 1 } with
      | mk outcome w₂ => cases outcome <;> rfl
  · obtain ⟨replaced, w₂, hreplace, haccesses⟩ := exists_run_replaceFile env o.schemaDirectory
      (Snapshot.fileName a.descriptor) (Snapshot.ofAnalysis a).canonicalBytes
      { w with accesses := w.accesses + 1 }
    cases replaced with
    | false =>
      have hgrows := replaceFile_eq_false hreplace
      refine Or.inr ⟨w₂, hgrows, fun as => ?_⟩
      rw [writeEach, run_bind_of_eq_ok hread, if_neg hsame, run_bind_of_eq_ok hreplace]
      rfl
    | true =>
      have hdisk := (replaceFile_eq_ok hreplace).1
      refine Or.inl ⟨true, w₂, .replaced ?_ hdisk haccesses, fun as => ?_⟩
      · intro hholds
        rcases hcontent with hcontent | ⟨-, hfails⟩
        · rw [hcontent, contentOf_of_holds hthere hholds hdisk] at hsame
          exact absurd (beq_some_self _) hsame
        · exact hfails
      · rw [writeEach, run_bind_of_eq_ok hread, if_neg hsame, run_bind_of_eq_ok hreplace,
          if_pos rfl, run_bind]
        cases run (writeEach env o.schemaDirectory as) w₂ with
        | mk outcome w₃ => cases outcome <;> rfl

/-- A snapshot that was written leaves its own file and no other changed. -/
theorem Writes.grows
    {rewritten : Bool} (h : Writes env o a w w₁ rewritten) :
    Disk.Grows (· = w.disk.place (o.snapshotPath a.descriptor)) w.disk w₁.disk := by
  cases h with
  | kept holds disk accesses => exact disk ▸ .refl _ _
  | replaced differs disk accesses =>
    exact (Disk.replaceFile_eq_ok o.isPlain_stateDirectory Options.isName_schema
      (Snapshot.isName_fileName a.descriptor) disk).1

theorem Writes.accesses_le
    {rewritten : Bool} (h : Writes env o a w w₁ rewritten) :
    w.accesses ≤ w₁.accesses := by
  cases h with
  | kept _ _ accesses => omega
  | replaced _ _ accesses => omega

theorem holds_iff_of_grows
    {changed : Location → Prop} {d d' : Disk} (hgrows : Disk.Grows changed d d')
    (hne : ¬ changed (d.place (o.snapshotPath a.descriptor))) :
    d'.Holds o a ↔ d.Holds o a := by
  rw [Disk.Holds, Disk.Holds, Disk.place_congr hgrows.here]
  exact hgrows.keepsFile hne _

/-! ## A batch -/

/-- What a batch leaves whose files were put in place where the given analyses say so. -/
structure Rewrites (env : Conditions) (o : Options) (as : List Analysis)
    (rewritten : Analysis → Bool) (w : World) (written : WrittenSnapshots) (w' : World) : Prop where
  updated : written.updated = (as.filter rewritten).map withSnapshot
  unchanged : written.unchanged = (as.filter fun a => !rewritten a).map withSnapshot
  disk : w'.disk = putInPlace o w.disk (as.filter rewritten)
  accesses : w'.accesses = w.accesses + as.length + (as.filter rewritten).length
  kept : ∀ a ∈ as, rewritten a = false → w.disk.Holds o a
  /-- Only a file that could not be read is put in place though it is there. -/
  replaced : ∀ a ∈ as, rewritten a = true → w.disk.Holds o a →
    ∃ n, w.accesses ≤ n ∧ n < w'.accesses ∧ env.diskFails n = true

theorem filter_cons_of_agree
    {p q : Analysis → Bool} (h : ∀ b ∈ as, p b = q b) :
    (a :: as).filter p = if p a then a :: as.filter q else as.filter q := by
  rw [List.filter_cons, List.filter_congr h]

/-- The first snapshot is written, and then the rest of the batch. -/
theorem Rewrites.cons
    {first : Bool} {rewritten rewritten' : Analysis → Bool} {rest : WrittenSnapshots}
    (hnames : ∀ b ∈ as, Snapshot.fileName a.descriptor ≠ Snapshot.fileName b.descriptor)
    (hself : rewritten' a = first) (hagree : ∀ b ∈ as, rewritten' b = rewritten b)
    (hfirst : Writes env o a w w₁ first) (h : Rewrites env o as rewritten w₁ rest w') :
    Rewrites env o (a :: as) rewritten' w (addWritten a first rest) w' := by
  have hholds : ∀ b ∈ as, w₁.disk.Holds o b ↔ w.disk.Holds o b := fun b hb =>
    holds_iff_of_grows hfirst.grows fun hplace =>
      hnames b hb (o.fileName_eq_of_place w.disk hplace).symm
  have hfilter := filter_cons_of_agree (a := a) hagree
  have hfilter' : (a :: as).filter (fun b => !rewritten' b) =
      if !rewritten' a then a :: as.filter (fun b => !rewritten b)
      else as.filter fun b => !rewritten b :=
    filter_cons_of_agree fun b hb => congrArg Bool.not (hagree b hb)
  rw [hself] at hfilter hfilter'
  have hkept : ∀ b ∈ as, rewritten' b = false → w.disk.Holds o b := fun b hb hb' =>
    (hholds b hb).mp (h.kept b hb (hagree b hb ▸ hb'))
  have hreplaced : ∀ b ∈ as, rewritten' b = true → w.disk.Holds o b →
      ∃ n, w.accesses ≤ n ∧ n < w'.accesses ∧ env.diskFails n = true := fun b hb hb' hholds' => by
    obtain ⟨n, hlow, hhigh, hfails⟩ :=
      h.replaced b hb (hagree b hb ▸ hb') ((hholds b hb).mpr hholds')
    exact ⟨n, hfirst.accesses_le.trans hlow, hhigh, hfails⟩
  have haccesses := h.accesses
  cases hfirst with
  | kept holds disk accesses =>
    simp only [Bool.not_false, if_true, Bool.false_eq_true, if_false] at hfilter hfilter'
    refine ⟨?_, ?_, ?_, ?_, ?_, ?_⟩
    · rw [updated_addWritten, hfilter, h.updated]
      rfl
    · rw [unchanged_addWritten, hfilter', h.unchanged]
      rfl
    · rw [hfilter, h.disk, disk]
    · rw [hfilter, List.length_cons]
      omega
    · intro b hb hb'
      rcases List.mem_cons.mp hb with rfl | hb
      · exact holds
      · exact hkept b hb hb'
    · intro b hb hb'
      rcases List.mem_cons.mp hb with rfl | hb
      · exact absurd (hb'.symm.trans hself) (by decide)
      · exact hreplaced b hb hb'
  | replaced differs disk accesses =>
    simp only [Bool.not_true, if_true, Bool.false_eq_true, if_false] at hfilter hfilter'
    refine ⟨?_, ?_, ?_, ?_, ?_, ?_⟩
    · rw [updated_addWritten, hfilter, h.updated]
      rfl
    · rw [unchanged_addWritten, hfilter', h.unchanged]
      rfl
    · rw [hfilter, h.disk, putInPlace, putInPlace, List.foldl_cons, disk]
    · rw [hfilter, List.length_cons, List.length_cons]
      omega
    · intro b hb hb'
      rcases List.mem_cons.mp hb with rfl | hb
      · exact absurd (hb'.symm.trans hself) (by decide)
      · exact hkept b hb hb'
    · intro b hb hb' hholds'
      rcases List.mem_cons.mp hb with rfl | hb
      · exact ⟨w.accesses, Nat.le_refl _, by omega, differs hholds'⟩
      · exact hreplaced b hb hb' hholds'

theorem exists_rewrites_of_writeEach
    {written : WrittenSnapshots} (hthere : w.disk.HasDirectory o.schemaDirectory)
    (hnames : as.Pairwise fun a b =>
      Snapshot.fileName a.descriptor ≠ Snapshot.fileName b.descriptor)
    (h : run (writeEach env o.schemaDirectory as) w = (.ok written, w')) :
    ∃ rewritten, Rewrites env o as rewritten w written w' := by
  induction as generalizing w written with
  | nil =>
    cases h
    exact ⟨fun _ => false, rfl, rfl, rfl, rfl, by simp, by simp⟩
  | cons a as ih =>
    obtain ⟨hfirst, hothers⟩ := List.pairwise_cons.mp hnames
    rcases writeEach_cons env hthere a with ⟨first, w₁, hwrites, hrun⟩ | ⟨w₁, -, hrun⟩
    · rw [hrun] at h
      obtain ⟨hmap, hworld⟩ := Prod.mk.inj h
      cases hrest : (run (writeEach env o.schemaDirectory as) w₁).1 with
      | error e =>
        rw [hrest] at hmap
        cases hmap
      | ok rest =>
        rw [hrest] at hmap
        cases hmap
        obtain ⟨rewritten, hrewrites⟩ := ih (hthere.of_grows hwrites.grows) hothers
          (Prod.ext hrest hworld)
        let rewritten' := fun b : Analysis =>
          if Snapshot.fileName b.descriptor = Snapshot.fileName a.descriptor then first
          else rewritten b
        have hself : rewritten' a = first := if_pos rfl
        have hagree : ∀ b ∈ as, rewritten' b = rewritten b := fun b hb =>
          if_neg (hfirst b hb).symm
        exact ⟨rewritten', hrewrites.cons hfirst hself hagree hwrites⟩
    · rw [hrun] at h
      cases h

/-- A batch that fails writes the snapshots before some file as a batch of their own, and then only
that file cannot be put in place. -/
theorem exists_of_writeEach_eq_error
    {e : BuildError} (hthere : w.disk.HasDirectory o.schemaDirectory)
    (h : run (writeEach env o.schemaDirectory as) w = (.error e, w')) :
    ∃ before a after written w₁, as = before ++ a :: after ∧
      e = .io (o.snapshotPath a.descriptor) ∧
      run (writeEach env o.schemaDirectory before) w = (.ok written, w₁) ∧
      ∀ changed, Disk.Grows changed w₁.disk w'.disk := by
  induction as generalizing w with
  | nil => cases h
  | cons a as ih =>
    rcases writeEach_cons env hthere a with ⟨first, w₁, hwrites, hrun⟩ | ⟨w₁, hgrows, hrun⟩
    · rw [hrun] at h
      obtain ⟨hmap, hworld⟩ := Prod.mk.inj h
      cases hrest : (run (writeEach env o.schemaDirectory as) w₁).1 with
      | ok rest =>
        rw [hrest] at hmap
        cases hmap
      | error e' =>
        rw [hrest] at hmap
        cases hmap
        obtain ⟨before, b, after, written, w₂, rfl, he, hbefore, hgrows⟩ :=
          ih (hthere.of_grows hwrites.grows) (Prod.ext hrest hworld)
        refine ⟨a :: before, b, after, addWritten a first written, w₂, rfl, he, ?_, hgrows⟩
        rw [hrun, hbefore]
        rfl
    · rw [hrun] at h
      cases h
      exact ⟨[], a, as, {}, w, rfl, rfl, rfl, hgrows⟩

/-! ## The whole step -/

theorem exists_run_makeDirectories (env : Conditions) (path : String) (w : World) :
    ∃ made w₁, run (makeDirectories env path) w = (.ok made, w₁) ∧
      w₁.accesses = w.accesses + 1 ∧ ∀ changed, Disk.Grows changed w.disk w₁.disk := by
  rw [makeDirectories, run_access_eq]
  split
  · exact ⟨_, _, rfl, rfl, fun _ => .refl _ _⟩
  · exact ⟨_, _, rfl, rfl, fun changed => Disk.grows_makeDirectories changed w.disk path⟩

/-- Writing starts in the directory of the snapshots, unless that cannot be made. -/
theorem run_writeSnapshots_cases (env : Conditions) (o : Options) (w : World) :
    ∃ w₁, w₁.accesses = w.accesses + 1 ∧ (∀ changed, Disk.Grows changed w.disk w₁.disk) ∧
      ((∀ as, run (writeSnapshots env o as) w = (.error (.io o.schemaDirectory), w₁)) ∨
        w₁.disk = (w.disk.makeDirectories o.schemaDirectory).1 ∧
        w₁.disk.HasDirectory o.schemaDirectory ∧
        ∀ as, run (writeSnapshots env o as) w = run (writeEach env o.schemaDirectory as) w₁) := by
  obtain ⟨made, w₁, hmake, haccesses, hgrows⟩ :=
    exists_run_makeDirectories env o.schemaDirectory w
  refine ⟨w₁, haccesses, hgrows, ?_⟩
  cases made with
  | false =>
    refine Or.inl fun as => ?_
    rw [writeSnapshots, run_bind_of_eq_ok hmake]
    rfl
  | true =>
    obtain ⟨⟨l, hmade⟩, -⟩ := makeDirectories_eq_ok hmake
    obtain ⟨-, hthere, -⟩ := Disk.makeDirectories_eq_ok (fun _ => False)
      o.isPlain_stateDirectory Options.isName_schema hmade
    refine Or.inr ⟨by rw [hmade], hthere, fun as => ?_⟩
    rw [writeSnapshots, run_bind_of_eq_ok hmake, if_pos rfl]

/-- The files of the batch hold their snapshots, and every other file is as it was before. -/
structure LeavesBatch (o : Options) (as : List Analysis) (d d' : Disk) : Prop where
  contents : ∀ a ∈ as, d'.contentOf (o.snapshotPath a.descriptor) =
    .ok (Snapshot.ofAnalysis a).canonicalBytes
  others : ∀ l, (∀ a ∈ as, l ≠ d.place (o.snapshotPath a.descriptor)) → Disk.KeepsFile l d d'

theorem leavesBatch_of_writeEach
    {d d' : Disk} {written : WrittenSnapshots} (hbefore : ∀ changed, Disk.Grows changed d w.disk)
    (hafter : ∀ changed, Disk.Grows changed w₁.disk d')
    (hnames : as.Pairwise fun a b =>
      Snapshot.fileName a.descriptor ≠ Snapshot.fileName b.descriptor)
    (h : run (writeEach env o.schemaDirectory as) w = (.ok written, w₁)) :
    LeavesBatch o as d d' := by
  constructor
  · intro a ha
    exact Disk.contentOf_of_grows (hafter fun _ => False) not_false
      (contentOf_of_writeEach hnames h ha)
  · intro l hl
    have hgrows := (hbefore _).trans ((writeEach_eq_ok h).1.trans (hafter _))
    apply hgrows.keepsFile
    rintro ⟨a, ha, hplace⟩
    exact hl a ha (hplace.trans (Disk.place_congr (hbefore fun _ => False).here _))

/-- A batch of different file names changes what differs and nothing else.  If it succeeds, the
files that were absent or held other bytes were put in place in the order of the batch, and the
result says which; only a file that the disk failed to read may be among them without need.  If a
file cannot be put in place, the files before it hold their snapshots and no other file is
changed. -/
theorem writeSnapshots_changes_what_differs
    (env : Conditions) (o : Options) (w : World)
    (hnames : as.Pairwise fun a b =>
      Snapshot.fileName a.descriptor ≠ Snapshot.fileName b.descriptor) :
    (∀ written w', run (writeSnapshots env o as) w = (.ok written, w') →
      LeavesBatch o as w.disk w'.disk ∧
      written.filesWritten = written.updated.length ∧
      written.filesUnchanged = written.unchanged.length ∧
      ∃ rewritten : Analysis → Bool,
        written.updated = (as.filter rewritten).map withSnapshot ∧
        written.unchanged = (as.filter fun a => !rewritten a).map withSnapshot ∧
        w'.disk = putInPlace o (w.disk.makeDirectories o.schemaDirectory).1
          (as.filter rewritten) ∧
        w'.accesses = w.accesses + 1 + as.length + (as.filter rewritten).length ∧
        (∀ a ∈ as, ¬ w.disk.Holds o a → rewritten a = true) ∧
        ((∀ n, w.accesses ≤ n → n < w'.accesses → env.diskFails n = false) →
          ∀ a ∈ as, rewritten a = true → ¬ w.disk.Holds o a)) ∧
    ∀ e w', run (writeSnapshots env o as) w = (.error e, w') →
      e = .io o.schemaDirectory ∧ LeavesBatch o [] w.disk w'.disk ∨
      ∃ before a after, as = before ++ a :: after ∧ e = .io (o.snapshotPath a.descriptor) ∧
        LeavesBatch o before w.disk w'.disk := by
  obtain ⟨w₁, haccesses, hgrows, hrun | ⟨hmade, hthere, hrun⟩⟩ := run_writeSnapshots_cases env o w
  · constructor
    · intro written w' h
      rw [hrun] at h
      cases h
    · intro e w' h
      rw [hrun] at h
      cases h
      exact Or.inl ⟨rfl, by simp, fun l _ => (hgrows fun _ => False).keepsFile not_false⟩
  · have hholds : ∀ a : Analysis, w₁.disk.Holds o a ↔ w.disk.Holds o a :=
      fun a => holds_iff_of_grows (hgrows fun _ => False) not_false
    constructor
    · intro written w' h
      have hcounted := isCounted_of_writeSnapshots h
      rw [hrun] at h
      obtain ⟨rewritten, hrewrites⟩ := exists_rewrites_of_writeEach hthere hnames h
      have hleaves := leavesBatch_of_writeEach hgrows (fun _ => .refl _ w'.disk) hnames h
      have hdisk := hrewrites.disk
      have hcount := hrewrites.accesses
      rw [hmade] at hdisk
      rw [haccesses] at hcount
      refine ⟨hleaves, hcounted.updated, hcounted.unchanged, rewritten, hrewrites.updated,
        hrewrites.unchanged, hdisk, hcount, ?_, ?_⟩
      · intro a ha hdiffers
        rw [← hholds a] at hdiffers
        by_contra hkept
        exact hdiffers (hrewrites.kept a ha (Bool.eq_false_of_not_eq_true hkept))
      · intro hreads a ha hrewritten hsame
        obtain ⟨n, hlow, hhigh, hfails⟩ :=
          hrewrites.replaced a ha hrewritten ((hholds a).mpr hsame)
        exact Bool.false_ne_true ((hreads n (by omega) hhigh).symm.trans hfails)
    · intro e w' h
      rw [hrun] at h
      obtain ⟨before, a, after, written, w₂, rfl, he, hbefore, hafter⟩ :=
        exists_of_writeEach_eq_error hthere h
      exact Or.inr ⟨before, a, after, rfl, he,
        leavesBatch_of_writeEach hgrows hafter (List.pairwise_append.mp hnames).1 hbefore⟩

theorem takes_emptyAnalysis_sample :
    ∀ a ∈ [⟨"sales", "Ship"⟩, ⟨"Stock", "Take"⟩].map emptyAnalysis,
      Disk.sample.Takes Options.sample.schemaDirectory (Snapshot.fileName a.descriptor) := by
  intro a ha
  have hroom : Disk.isUsable (Path.join Options.sample.schemaDirectory
        (Snapshot.fileName a.descriptor)) = true ∧
      (Snapshot.fileName a.descriptor).utf8ByteSize ≤ Disk.nameLimit ∧
      Disk.sample.isDirectory (Disk.sample.place Options.sample.schemaDirectory ++
        [Snapshot.fileName a.descriptor]) = false := by
    revert a
    decide +kernel
  exact ⟨Disk.hasDirectory_sample, by decide +kernel, hroom.1, hroom.2.1, hroom.2.2⟩

/-- After one snapshot was written, a batch with another one puts only that in place; and where the
disk fails at the second file of a batch, the first one is left. -/
theorem writeSnapshots_changes_what_differs_sample :
    let ship := emptyAnalysis ⟨"sales", "Ship"⟩
    let take := emptyAnalysis ⟨"Stock", "Take"⟩
    let calm := Conditions.calm .sample ⟨0, 0⟩
    (∃ before w₁ written w₂, run (writeSnapshots calm .sample [ship]) .sample = (.ok before, w₁) ∧
      run (writeSnapshots calm .sample [ship, take]) w₁ = (.ok written, w₂) ∧
      written.updated = [withSnapshot take] ∧ written.unchanged = [withSnapshot ship]) ∧
    ∃ e w', run (writeSnapshots { calm with diskFails := (· == 4) } .sample [ship, take]) .sample =
        (.error e, w') ∧
      LeavesBatch .sample [ship] Disk.sample w'.disk := by
  intro ship take calm
  have hnames : [ship, take].Pairwise fun a b =>
      Snapshot.fileName a.descriptor ≠ Snapshot.fileName b.descriptor := by decide +kernel
  have hdisk := (Conditions.calm_calm .sample ⟨0, 0⟩).diskFails
  constructor
  · have hthere : World.sample.disk.HasDirectory Options.sample.schemaDirectory :=
      Disk.hasDirectory_sample
    have hship : ∀ a ∈ [ship], World.sample.disk.Takes Options.sample.schemaDirectory
        (Snapshot.fileName a.descriptor) :=
      fun a ha => takes_emptyAnalysis_sample a (List.mem_of_mem_dropLast ha)
    obtain ⟨before, w₁, hfirst, -, hroom⟩ := exists_writeSnapshots_eq_ok hdisk hthere hship
    have hboth : ∀ a ∈ [ship, take], w₁.disk.Takes Options.sample.schemaDirectory
        (Snapshot.fileName a.descriptor) :=
      fun a ha => hroom.takes _ _ (takes_emptyAnalysis_sample a ha)
    obtain ⟨written, w₂, hsecond, -, -⟩ :=
      exists_writeSnapshots_eq_ok hdisk (hroom.there _ hthere) hboth
    have hleaves := ((writeSnapshots_changes_what_differs calm .sample .sample
      (List.pairwise_singleton _ ship)).1 before w₁ hfirst).1
    obtain ⟨-, -, -, rewritten, hupdated, hunchanged, -, -, hdiffers, hsame⟩ :=
      (writeSnapshots_changes_what_differs calm .sample w₁ hnames).1 written w₂ hsecond
    have hship : rewritten ship = false := Bool.eq_false_iff.mpr fun hrewritten =>
      hsame (fun n _ _ => hdisk n) ship List.mem_cons_self hrewritten
        (holds_of_contentOf (hleaves.contents ship List.mem_cons_self))
    have hplace : ∀ d : Disk, d.place (Options.sample.snapshotPath take.descriptor) =
        Disk.sample.place (Options.sample.snapshotPath take.descriptor) := fun d => by
      have habsolute : Path.isAbsolute (Options.sample.snapshotPath take.descriptor) = true := by
        decide +kernel
      rw [Disk.place, Disk.place, Disk.origin, Disk.origin, if_pos habsolute, if_pos habsolute]
    have htake : rewritten take = true := by
      refine hdiffers take (List.mem_cons_of_mem _ List.mem_cons_self) fun hholds => ?_
      rw [Disk.Holds, hplace, hleaves.others] at hholds
      · have hnone : (World.sample.disk.node? (Disk.sample.place
            (Options.sample.snapshotPath take.descriptor))).isNone = true := by decide +kernel
        rw [Option.isNone_iff_eq_none.mp hnone] at hholds
        cases hholds
      · rintro a ha
        rw [List.mem_singleton.mp ha]
        exact Options.sample.place_snapshotPath_ne _ (by decide +kernel)
    refine ⟨before, w₁, written, w₂, hfirst, hsecond, ?_, ?_⟩
    · rw [hupdated]
      simp [hship, htake]
    · rw [hunchanged]
      simp [hship, htake]
  · have herror : (run (writeSnapshots { calm with diskFails := (· == 4) } .sample
          [ship, take]) .sample).1.map (fun _ => ()) =
        .error (.io (Options.sample.snapshotPath take.descriptor)) := by
      decide +kernel
    rcases hrun : run (writeSnapshots { calm with diskFails := (· == 4) } .sample
      [ship, take]) .sample with ⟨e | written, w'⟩
    · rw [hrun] at herror
      obtain rfl := Except.error.inj herror
      refine ⟨_, w', rfl, ?_⟩
      rcases (writeSnapshots_changes_what_differs _ .sample .sample hnames).2 _ w' hrun with
        ⟨he, -⟩ | ⟨before, a, after, has, he, hleaves⟩
      · exact absurd he (by decide +kernel)
      · rcases List.cons_eq_append_iff.mp has with ⟨rfl, hfirst⟩ | ⟨before', rfl, hrest⟩
        · rw [(List.cons.inj hfirst).1] at he
          exact absurd he (by decide +kernel)
        · rcases List.cons_eq_append_iff.mp hrest with ⟨rfl, -⟩ | ⟨before'', -, hnil⟩
          · exact hleaves
          · simp at hnil
    · rw [hrun] at herror
      cases herror

end Build

end SqlSnapshot
