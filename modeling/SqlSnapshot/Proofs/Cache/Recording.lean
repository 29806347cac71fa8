import SqlSnapshot.Cache.Basic
import SqlSnapshot.Proofs.Cache.Documents

/-!
# What a cache records

`fingerprint?` is what the cache file will say of a procedure if it is written now.  Staging an
entry sets the fingerprint of its procedure and of no other, whether the entry is kept or dropped
because it repeats what was loaded.
-/

namespace SqlSnapshot

/-- What an entry says of a procedure, without the spelling and the time of the analysis. -/
structure Fingerprint where
  lastModified : Timestamp
  snapshotHash : Option String
  snapshotFile : Option String
  dependencies : List Dependency

namespace CacheEntry

def fingerprint (e : CacheEntry) : Fingerprint :=
  ⟨e.lastModified, e.snapshotHash, e.snapshotFile, e.dependencies⟩

theorem sameFingerprint_iff
    (a b : CacheEntry) :
    a.sameFingerprint b = true ↔
      a.descriptor.same b.descriptor = true ∧ a.fingerprint = b.fingerprint := by
  simp only [sameFingerprint, fingerprint, Bool.and_eq_true, beq_iff_eq, Fingerprint.mk.injEq]
  tauto

end CacheEntry

namespace Cache

variable {c : Cache} {e : CacheEntry} {es : List CacheEntry} {d : Descriptor}

/-- The entries that were loaded and those that are staged are well formed. -/
structure IsWellFormed (c : Cache) : Prop where
  loaded : c.loaded.IsWellFormed
  staged : c.staged.IsWellFormed

def fingerprint? (c : Cache) (d : Descriptor) : Option Fingerprint :=
  (c.merged.get? d).map (·.fingerprint)

theorem isWellFormed_load
    (o : Options) (content : Option ByteArray) :
    (load o content).IsWellFormed :=
  ⟨CacheEntries.isWellFormed_ofFile content, List.Pairwise.nil, by simp [load]⟩

theorem IsWellFormed.merged
    (h : c.IsWellFormed) :
    c.merged.IsWellFormed := by
  refine ⟨h.loaded.sorted.putAll _, ?_⟩
  intro e he
  rcases CacheEntries.mem_putAll he with he | he
  · exact h.staged.entries e he
  · exact h.loaded.entries e he

theorem get?_merged
    (h : c.IsWellFormed) (d : Descriptor) :
    c.merged.get? d = (c.staged.get? d).or (c.loaded.get? d) :=
  CacheEntries.get?_putAll h.staged.sorted _ d

theorem fingerprint?_congr
    {d' : Descriptor} (h : d.same d' = true) (c : Cache) :
    c.fingerprint? d = c.fingerprint? d' := by
  rw [fingerprint?, fingerprint?, CacheEntries.get?_congr h]

/-! ## Staging -/

@[simp]
theorem loaded_stage (c : Cache) (e : CacheEntry) : (c.stage e).loaded = c.loaded := by
  unfold stage
  split
  · split <;> rfl
  · rfl

@[simp]
theorem directory_stage (c : Cache) (e : CacheEntry) : (c.stage e).directory = c.directory := by
  unfold stage
  split
  · split <;> rfl
  · rfl

/-- A staged entry is put among the staged ones, or repeats the loaded one. -/
theorem stage_cases
    (c : Cache) (e : CacheEntry) :
    (c.stage e).staged = CacheEntries.put e c.staged ∨
      ∃ old, c.loaded.get? e.descriptor = some old ∧ old.fingerprint = e.fingerprint ∧
        (c.stage e).staged = c.staged.erase e.descriptor := by
  unfold stage
  split
  · rename_i old hold
    split
    · rename_i hsame
      exact Or.inr ⟨old, hold, ((CacheEntry.sameFingerprint_iff _ _).mp hsame).2, rfl⟩
    · exact Or.inl rfl
  · exact Or.inl rfl

theorem IsWellFormed.stage
    (h : c.IsWellFormed) (he : e.IsWellFormed) :
    (c.stage e).IsWellFormed := by
  refine ⟨by rw [loaded_stage]; exact h.loaded, ?_⟩
  rcases c.stage_cases e with hput | ⟨old, -, -, herase⟩
  · rw [hput]
    refine ⟨h.staged.sorted.put e, ?_⟩
    intro f hf
    rcases CacheEntries.mem_put hf with rfl | hf
    · exact he
    · exact h.staged.entries f hf
  · rw [herase]
    exact ⟨h.staged.sorted.erase _, fun f hf => h.staged.entries f (List.mem_of_mem_filter hf)⟩

theorem fingerprint?_stage
    (h : c.IsWellFormed) (he : e.IsWellFormed) (d : Descriptor) :
    (c.stage e).fingerprint? d =
      if e.descriptor.same d then some e.fingerprint else c.fingerprint? d := by
  rw [fingerprint?, get?_merged (h.stage he), loaded_stage]
  rcases c.stage_cases e with hput | ⟨old, hold, hsame, herase⟩
  · rw [hput, CacheEntries.get?_put]
    by_cases hd : e.descriptor.same d = true
    · simp [hd]
    · simp [hd, fingerprint?, get?_merged h]
  · rw [herase, CacheEntries.get?_erase]
    by_cases hd : e.descriptor.same d = true
    · simp [hd, ← CacheEntries.get?_congr hd, hold, hsame]
    · simp [hd, fingerprint?, get?_merged h]

theorem staged_stage_of_repeats
    {old : CacheEntry} (hold : c.loaded.get? e.descriptor = some old)
    (hsame : old.fingerprint = e.fingerprint) (hstaged : c.staged = []) :
    (c.stage e).staged = [] := by
  have hrepeats : old.sameFingerprint e = true :=
    (CacheEntry.sameFingerprint_iff _ _).mpr ⟨CacheEntries.same_of_get?_eq_some hold, hsame⟩
  simp [stage, hold, hrepeats, hstaged, CacheEntries.erase]

/-! ## Staging many -/

@[simp]
theorem loaded_foldl_stage
    (c : Cache) (es : List CacheEntry) :
    (es.foldl stage c).loaded = c.loaded := by
  induction es generalizing c with
  | nil => rfl
  | cons e es ih => rw [List.foldl_cons, ih, loaded_stage]

@[simp]
theorem directory_foldl_stage
    (c : Cache) (es : List CacheEntry) :
    (es.foldl stage c).directory = c.directory := by
  induction es generalizing c with
  | nil => rfl
  | cons e es ih => rw [List.foldl_cons, ih, directory_stage]

theorem merged_foldl_stage_of_unstaged
    (hstaged : (es.foldl stage c).staged = []) :
    (es.foldl stage c).merged = c.loaded := by
  rw [merged, hstaged, loaded_foldl_stage]
  rfl

theorem IsWellFormed.foldl_stage
    (h : c.IsWellFormed) (hes : ∀ e ∈ es, e.IsWellFormed) :
    (es.foldl Cache.stage c).IsWellFormed := by
  induction es generalizing c with
  | nil => exact h
  | cons e es ih =>
    exact ih (h.stage (hes e List.mem_cons_self)) fun f hf => hes f (List.mem_cons_of_mem _ hf)

/-- Procedures that are not among the recorded ones keep their fingerprints. -/
theorem fingerprint?_foldl_stage_of_not
    (h : c.IsWellFormed) (hes : ∀ e ∈ es, e.IsWellFormed)
    (hd : ∀ e ∈ es, e.descriptor.same d = false) :
    (es.foldl stage c).fingerprint? d = c.fingerprint? d := by
  induction es generalizing c with
  | nil => rfl
  | cons e es ih =>
    have he := hes e List.mem_cons_self
    rw [List.foldl_cons, ih (h.stage he) (fun f hf => hes f (List.mem_cons_of_mem _ hf))
      (fun f hf => hd f (List.mem_cons_of_mem _ hf)), fingerprint?_stage h he,
      hd e List.mem_cons_self]
    rfl

theorem fingerprint?_foldl_stage_of_mem
    (h : c.IsWellFormed) (hes : ∀ e ∈ es, e.IsWellFormed)
    (hagree : ∀ a ∈ es, ∀ b ∈ es, a.descriptor.same b.descriptor = true →
      a.fingerprint = b.fingerprint)
    (he : e ∈ es) :
    (es.foldl stage c).fingerprint? e.descriptor = some e.fingerprint := by
  induction es generalizing c e with
  | nil => simp at he
  | cons f es ih =>
    have hf := hes f List.mem_cons_self
    have hothers := fun g hg => hes g (List.mem_cons_of_mem f hg)
    have hagree' := fun a ha b hb =>
      hagree a (List.mem_cons_of_mem f ha) b (List.mem_cons_of_mem f hb)
    rw [List.foldl_cons]
    by_cases hlater : ∃ g ∈ es, g.descriptor.same e.descriptor = true
    · obtain ⟨g, hg, hsame⟩ := hlater
      rw [← fingerprint?_congr hsame, ih (h.stage hf) hothers hagree' hg,
        hagree g (List.mem_cons_of_mem f hg) e he hsame]
    · have hlast : ∀ g ∈ es, g.descriptor.same e.descriptor = false := by
        intro g hg
        rw [Bool.eq_false_iff]
        exact fun hsame => hlater ⟨g, hg, hsame⟩
      rcases List.mem_cons.mp he with rfl | he
      · rw [fingerprint?_foldl_stage_of_not (h.stage hf) hothers hlast, fingerprint?_stage h hf]
        simp [Descriptor.same_refl]
      · have hself := hlast e he
        rw [Descriptor.same_refl] at hself
        contradiction

theorem staged_foldl_stage_of_repeats
    (hes : ∀ e ∈ es, ∃ old, c.loaded.get? e.descriptor = some old ∧
      old.fingerprint = e.fingerprint)
    (hstaged : c.staged = []) :
    (es.foldl stage c).staged = [] := by
  induction es generalizing c with
  | nil => exact hstaged
  | cons e es ih =>
    obtain ⟨old, hold, hsame⟩ := hes e List.mem_cons_self
    apply ih
    · intro f hf
      rw [loaded_stage]
      exact hes f (List.mem_cons_of_mem _ hf)
    · exact staged_stage_of_repeats hold hsame hstaged

/-! ## Recording -/

/-- The entry that is staged for an analysis. -/
def analysisRecord? (now : Timestamp) (a : Analysis) : Option CacheEntry :=
  a.lastModified.map fun lastModified => {
    schema := a.descriptor.schema
    name := a.descriptor.name
    lastModified
    snapshotHash := a.snapshotHash
    snapshotFile := a.snapshotFile
    lastAnalyzed := now
    dependencies := Dependency.canonical a.dependencies }

/-- The entry that is staged for a procedure that is reused. -/
def reuseRecord? (loaded : CacheEntries) (now : Timestamp) (i : CollectionItem) :
    Option CacheEntry :=
  i.lastModified.map fun lastModified => {
    schema := i.descriptor.schema
    name := i.descriptor.name
    lastModified
    snapshotHash := i.cachedHash
    snapshotFile := i.cachedFile
    lastAnalyzed := ((loaded.get? i.descriptor).map (·.lastAnalyzed)).getD now
    dependencies := Dependency.canonical i.dependencies }

theorem foldl_recordAnalysis
    (c : Cache) (now : Timestamp) (as : List Analysis) :
    as.foldl (fun c a => c.recordAnalysis now a) c =
      (as.filterMap (analysisRecord? now)).foldl stage c := by
  rw [List.foldl_filterMap]
  congr 1
  funext c a
  unfold recordAnalysis analysisRecord?
  cases a.lastModified <;> rfl

theorem foldl_recordReuse
    (c : Cache) (now : Timestamp) (is : List CollectionItem) :
    is.foldl (fun c i => c.recordReuse now i) c =
      (is.filterMap (reuseRecord? c.loaded now)).foldl stage c := by
  induction is generalizing c with
  | nil => rfl
  | cons i is ih =>
    rw [List.foldl_cons, ih]
    unfold recordReuse
    cases hdate : i.lastModified with
    | none => simp [reuseRecord?, hdate]
    | some lastModified => simp [reuseRecord?, hdate]

end Cache

end SqlSnapshot
