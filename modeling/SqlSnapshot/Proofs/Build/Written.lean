import SqlSnapshot.Proofs.Build.Success

/-!
# Snapshots that share a file

The document of a procedure starts with its name, so different procedures have different documents.
Their file names can be the same all the same, because every character that some platform does not
take is replaced by one and the same.  A batch leaves all its documents on the disk if and only if
their file names differ, and only such a batch has nothing to write when it is written again.
-/

namespace SqlSnapshot

namespace Snapshot

theorem write_toJson
    (s : Snapshot) :
    ∃ rest, s.toJson.write (.indented 0) =
      '\x7b' :: ((Json.Layout.indented 1).lineStart ++ Json.quote "formatVersion" ++ [':', ' '] ++
        (Json.ofNat s.formatVersion).write (.indented 1) ++
        ',' :: ((Json.Layout.indented 1).lineStart ++ Json.quote "schema" ++ [':', ' '] ++
          Json.quote s.schema ++
          ',' :: ((Json.Layout.indented 1).lineStart ++ Json.quote "name" ++ [':', ' '] ++
            Json.quote s.name ++ rest))) :=
  ⟨_, rfl⟩

theorem names_eq_of_canonicalText
    {s t : Snapshot} (hversion : s.formatVersion = t.formatVersion)
    (h : s.canonicalText = t.canonicalText) :
    s.schema = t.schema ∧ s.name = t.name := by
  have hwritten : s.toJson.write (.indented 0) = t.toJson.write (.indented 0) := by
    rw [canonicalText, canonicalText, String.append_left_inj] at h
    exact String.ofList_injective h
  obtain ⟨rest, hs⟩ := write_toJson s
  obtain ⟨rest', ht⟩ := write_toJson t
  rw [hs, ht, hversion] at hwritten
  simp only [List.append_assoc, List.cons_append, List.cons.injEq, true_and,
    List.append_cancel_left_eq] at hwritten
  obtain ⟨hschema, hrest⟩ := Json.quote_append_inj hwritten
  simp only [List.cons.injEq, true_and, List.append_cancel_left_eq] at hrest
  exact ⟨hschema, (Json.quote_append_inj hrest).1⟩

theorem descriptor_eq_of_canonicalBytes
    {a b : Analysis} (h : (ofAnalysis a).canonicalBytes = (ofAnalysis b).canonicalBytes) :
    a.descriptor = b.descriptor := by
  have htext : (ofAnalysis a).canonicalText = (ofAnalysis b).canonicalText :=
    String.toByteArray_inj.mp h
  obtain ⟨hschema, hname⟩ :=
    names_eq_of_canonicalText (s := ofAnalysis a) (t := ofAnalysis b) rfl htext
  cases hfirst : a.descriptor with
  | mk schema name =>
    cases hsecond : b.descriptor with
    | mk schema' name' =>
      simp only [ofAnalysis, hfirst, hsecond] at hschema hname
      rw [hschema, hname]

end Snapshot

/-- The file that the result names holds its document, and has the digest that it names. -/
def Analysis.IsStored (a : Analysis) (directory : String) (d : Disk) : Prop :=
  ∃ file bytes, a.snapshotFile = some file ∧
    d.contentOf (Path.join directory file) = .ok bytes ∧
    a.snapshotHash = some (Sha256.hex bytes) ∧ bytes = (Snapshot.ofAnalysis a).canonicalBytes

namespace Build

variable {env : Conditions} {o : Options} {w w' : World} {as : List Analysis}

theorem isStored_withSnapshot
    {a : Analysis} {directory : String} {d : Disk} :
    (withSnapshot a).IsStored directory d ↔
      d.contentOf (Path.join directory (Snapshot.fileName a.descriptor)) =
        .ok (Snapshot.ofAnalysis a).canonicalBytes := by
  constructor
  · rintro ⟨file, bytes, hfile, hcontent, -, rfl⟩
    obtain rfl : Snapshot.fileName a.descriptor = file := Option.some.inj hfile
    exact hcontent
  · intro hcontent
    exact ⟨_, _, rfl, hcontent, rfl, rfl⟩

theorem returned_stored_iff
    {written : WrittenSnapshots} {directory : String} {d : Disk}
    (hperm : (written.updated ++ written.unchanged).Perm (as.map withSnapshot)) :
    (∀ b ∈ written.updated ++ written.unchanged, b.IsStored directory d) ↔
      ∀ a ∈ as, (withSnapshot a).IsStored directory d := by
  simp only [hperm.mem_iff, List.forall_mem_map]

/-- One file holds the document of one procedure only. -/
theorem fileName_ne_of_isStored
    {directory : String} {d : Disk}
    (hdistinct : as.Pairwise fun a b => a.descriptor ≠ b.descriptor)
    (hstored : ∀ a ∈ as, (withSnapshot a).IsStored directory d) :
    as.Pairwise fun a b => Snapshot.fileName a.descriptor ≠ Snapshot.fileName b.descriptor := by
  refine hdistinct.imp_of_mem ?_
  intro a b ha hb hne hfile
  have hfirst := hstored a ha
  have hsecond := hstored b hb
  rw [isStored_withSnapshot] at hfirst hsecond
  rw [hfile, hsecond] at hfirst
  exact hne (Snapshot.descriptor_eq_of_canonicalBytes (Except.ok.inj hfirst).symm)

theorem beq_some_self (bytes : ByteArray) : (some bytes == some bytes) = true :=
  beq_self_eq_true bytes.data

theorem writeEach_of_isStored
    (hdisk : ∀ n, env.diskFails n = false) {directory : String} {w : World}
    (hstored : ∀ a ∈ as, (withSnapshot a).IsStored directory w.disk) :
    ∃ w', run (writeEach env directory as) w =
      (.ok { filesUnchanged := as.length, unchanged := as.map withSnapshot }, w') ∧
        w'.disk = w.disk := by
  induction as generalizing w with
  | nil => exact ⟨w, rfl, rfl⟩
  | cons a as ih =>
    have hcontent := isStored_withSnapshot.mp (hstored a List.mem_cons_self)
    have hread : run (contentOf env (Path.join directory (Snapshot.fileName a.descriptor))) w =
        (.ok (some (Snapshot.ofAnalysis a).canonicalBytes),
          { w with accesses := w.accesses + 1 }) := by
      rw [contentOf, run_access (hdisk _), hcontent]
      rfl
    obtain ⟨w', hrest, hdisk'⟩ := ih (w := { w with accesses := w.accesses + 1 })
      fun b hb => hstored b (List.mem_cons_of_mem a hb)
    refine ⟨w', ?_, hdisk'⟩
    rw [writeEach, run_bind_of_eq_ok hread, if_pos (beq_some_self _), run_bind_of_eq_ok hrest]
    rfl

/-- After a batch of different procedures was written, every result is stored and writing the batch
again writes nothing if and only if no two of the procedures share a file name. -/
theorem written_stored_iff
    (hdistinct : as.Pairwise fun a b => a.descriptor ≠ b.descriptor) {written : WrittenSnapshots}
    (h : run (writeSnapshots env o as) w = (.ok written, w')) :
    (written.updated ++ written.unchanged).Perm (as.map withSnapshot) ∧
      ((as.Pairwise fun a b =>
          Snapshot.fileName a.descriptor ≠ Snapshot.fileName b.descriptor) ↔
        (∀ a ∈ written.updated ++ written.unchanged,
          a.IsStored o.schemaDirectory w'.disk) ∧
        ∀ (env' : Conditions) (v : World), (∀ n, env'.diskFails n = false) → v.disk = w'.disk →
          ∃ again v', run (writeSnapshots env' o as) v = (.ok again, v') ∧
            again.updated = [] ∧ v'.disk = v.disk) := by
  obtain ⟨-, hthere, hperm, -, -, hcontents⟩ := writeSnapshots_eq_ok h
  rw [returned_stored_iff hperm]
  refine ⟨hperm, ?_, fun h => fileName_ne_of_isStored hdistinct h.1⟩
  intro hnames
  have hstored : ∀ a ∈ as, (withSnapshot a).IsStored o.schemaDirectory w'.disk :=
    fun a ha => isStored_withSnapshot.mpr (hcontents hnames a ha)
  refine ⟨hstored, ?_⟩
  intro env' v hdisk hv
  rw [← hv] at hthere hstored
  obtain ⟨v', hagain, hv'⟩ := writeEach_of_isStored hdisk
    (w := { v with accesses := v.accesses + 1 }) hstored
  refine ⟨{ filesUnchanged := as.length, unchanged := as.map withSnapshot }, v', ?_, rfl, hv'⟩
  rw [writeSnapshots, run_bind_of_eq_ok (run_makeDirectories hdisk hthere)]
  exact hagain

/-! ## Two batches -/

/-- The analysis of a procedure that does nothing. -/
def emptyAnalysis (d : Descriptor) : Analysis where
  descriptor := d
  content := {}

theorem exists_writeSnapshots_sample
    (as : List Analysis)
    (htakes : ∀ name ∈ as.map fun a => Snapshot.fileName a.descriptor,
      Disk.isUsable (Path.join Options.sample.schemaDirectory name) = true ∧
        name.utf8ByteSize ≤ Disk.nameLimit ∧
        Disk.sample.isDirectory (Disk.sample.place Options.sample.schemaDirectory ++ [name]) =
          false) :
    ∃ written w', run (writeSnapshots (.calm .sample ⟨0, 0⟩) .sample as) .sample =
      (.ok written, w') := by
  have hroom : ∀ a ∈ as, Disk.sample.Takes Options.sample.schemaDirectory
      (Snapshot.fileName a.descriptor) := by
    intro a ha
    obtain ⟨husable, hlimit, hfree⟩ := htakes _ (List.mem_map_of_mem ha)
    exact ⟨Disk.hasDirectory_sample, by decide +kernel, husable, hlimit, hfree⟩
  obtain ⟨written, w', hwritten, -, -⟩ := exists_writeSnapshots_eq_ok (w := .sample)
    (Conditions.calm_calm .sample ⟨0, 0⟩).diskFails Disk.hasDirectory_sample hroom
  exact ⟨written, w', hwritten⟩

theorem written_stored_iff_sample :
    ([⟨"sales", "Ship"⟩, ⟨"Stock", "Take"⟩].map emptyAnalysis).Pairwise
        (fun a b => a.descriptor ≠ b.descriptor) ∧
      ∃ written w', run (writeSnapshots (.calm .sample ⟨0, 0⟩) .sample
          ([⟨"sales", "Ship"⟩, ⟨"Stock", "Take"⟩].map emptyAnalysis)) .sample =
            (.ok written, w') ∧
        ∀ a ∈ written.updated ++ written.unchanged,
          a.IsStored Options.sample.schemaDirectory w'.disk := by
  have hdistinct : ([⟨"sales", "Ship"⟩, ⟨"Stock", "Take"⟩].map emptyAnalysis).Pairwise
      (fun a b => a.descriptor ≠ b.descriptor) := by decide +kernel
  obtain ⟨written, w', hwritten⟩ := exists_writeSnapshots_sample
    ([⟨"sales", "Ship"⟩, ⟨"Stock", "Take"⟩].map emptyAnalysis) (by decide +kernel)
  obtain ⟨-, hiff⟩ := written_stored_iff hdistinct hwritten
  exact ⟨hdistinct, written, w', hwritten, (hiff.mp (by decide +kernel)).1⟩

/-- A slash and a colon become the same character, and the second procedure takes the file of the
first. -/
theorem written_not_stored :
    ([⟨"sales", "Order/Line"⟩, ⟨"sales", "Order:Line"⟩].map emptyAnalysis).Pairwise
        (fun a b => a.descriptor.same b.descriptor = false) ∧
      ∃ written w', run (writeSnapshots (.calm .sample ⟨0, 0⟩) .sample
          ([⟨"sales", "Order/Line"⟩, ⟨"sales", "Order:Line"⟩].map emptyAnalysis)) .sample =
            (.ok written, w') ∧
        ¬ ∀ a ∈ written.updated ++ written.unchanged,
          a.IsStored Options.sample.schemaDirectory w'.disk := by
  obtain ⟨written, w', hwritten⟩ := exists_writeSnapshots_sample
    ([⟨"sales", "Order/Line"⟩, ⟨"sales", "Order:Line"⟩].map emptyAnalysis) (by decide +kernel)
  refine ⟨by decide +kernel, written, w', hwritten, ?_⟩
  obtain ⟨-, -, hperm, -⟩ := writeSnapshots_eq_ok hwritten
  rw [returned_stored_iff hperm]
  intro hstored
  have hnames := fileName_ne_of_isStored (by decide +kernel) hstored
  revert hnames
  decide +kernel

end Build

end SqlSnapshot
