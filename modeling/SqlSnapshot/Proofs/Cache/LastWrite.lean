import SqlSnapshot.Proofs.Cache.Recording
import SqlSnapshot.Proofs.Layout

/-!
# The cache as a map of last writes

Whatever a cache file holds, and whatever is recorded between loading and writing it, the file then
says of every procedure what was recorded last, or else what it said before.  An entry that repeats
the loaded one leaves the loaded one in its place, so that a file is written only when some
procedure ends with another fingerprint than it was loaded with.

What is staged is at any time determined by the last entry of each procedure
(`Cache.get?_staged_foldl_stage`), and a list in order by what it answers
(`CacheEntries.Sorted.ext`).
-/

namespace SqlSnapshot

/-! ## Entries as answers -/

namespace CacheEntries

variable {es fs : CacheEntries}

theorem Sorted.subset_of_get?
    (hes : es.Sorted) (h : ∀ d, es.get? d = fs.get? d) :
    es ⊆ fs := by
  intro e he
  apply mem_of_get?_eq_some
  rw [← h e.descriptor]
  exact get?_of_mem hes he

/-- Entries in order that answer every look-up alike are the same. -/
theorem Sorted.ext
    (hes : es.Sorted) (hfs : fs.Sorted) (h : ∀ d, es.get? d = fs.get? d) :
    es = fs := by
  have hdistinct : ∀ {gs : CacheEntries}, gs.Sorted → gs.Nodup := fun hgs =>
    hgs.imp fun hlt heq => hlt.ne (congrArg (fun e => e.descriptor.orderKey) heq)
  have hperm : es.Perm fs := (List.perm_ext_iff_of_nodup (hdistinct hes) (hdistinct hfs)).mpr
    fun e => ⟨fun he => hes.subset_of_get? h he,
      fun he => hfs.subset_of_get? (fun d => (h d).symm) he⟩
  refine hperm.eq_of_pairwise ?_ hes hfs
  intro a b _ _ hab hba
  exact absurd hba hab.asymm

theorem ne_nil_iff_exists_get? :
    es ≠ [] ↔ ∃ d e, es.get? d = some e := by
  constructor
  · intro h
    obtain ⟨e, rest, rfl⟩ := List.exists_cons_of_ne_nil h
    exact ⟨e.descriptor, e, by rw [get?_cons, if_pos (Descriptor.same_refl _)]⟩
  · rintro ⟨d, e, h⟩ rfl
    cases h

/-- The entry repeats what was loaded of its procedure. -/
def holds (loaded : CacheEntries) (e : CacheEntry) : Bool :=
  (loaded.get? e.descriptor).any (·.sameFingerprint e)

/-- The last of the entries of a procedure. -/
def last? (es : List CacheEntry) (d : Descriptor) : Option CacheEntry :=
  (es.filter (·.descriptor.same d)).getLast?

theorem last?_append_singleton
    (es : List CacheEntry) (e : CacheEntry) (d : Descriptor) :
    last? (es ++ [e]) d = if e.descriptor.same d then some e else last? es d := by
  by_cases h : e.descriptor.same d = true <;> simp [last?, List.filter_append, h]

theorem same_of_last?_eq_some
    {es : List CacheEntry} {e : CacheEntry} {d : Descriptor} (h : last? es d = some e) :
    e.descriptor.same d = true :=
  (List.mem_filter.mp (List.mem_of_getLast? h)).2

end CacheEntries

/-! ## Staging -/

namespace Cache

variable {c : Cache} {es fs : List CacheEntry}

theorem stage_eq (c : Cache) (e : CacheEntry) :
    c.stage e = { c with
      staged := if c.loaded.holds e then c.staged.erase e.descriptor else c.staged.put e } := by
  unfold stage CacheEntries.holds
  cases hold : c.loaded.get? e.descriptor with
  | none => simp
  | some old => by_cases hsame : old.sameFingerprint e = true <;> simp [hsame]

theorem get?_staged_stage
    (c : Cache) (e : CacheEntry) (d : Descriptor) :
    (c.stage e).staged.get? d =
      if e.descriptor.same d then (if c.loaded.holds e then none else some e)
      else c.staged.get? d := by
  rw [stage_eq]
  by_cases hholds : c.loaded.holds e = true
  · simp only [hholds, if_true, CacheEntries.get?_erase]
  · simp only [hholds, if_false, CacheEntries.get?_put, Bool.false_eq_true]

/-- The last entry of a procedure is staged, unless it repeats the loaded one. -/
theorem get?_staged_foldl_stage
    (c : Cache) (es : List CacheEntry) (d : Descriptor) :
    (es.foldl stage c).staged.get? d =
      match CacheEntries.last? es d with
      | some e => if c.loaded.holds e then none else some e
      | none => c.staged.get? d := by
  induction es using List.reverseRecOn with
  | nil => rfl
  | append_singleton es e ih =>
    rw [List.foldl_concat, get?_staged_stage, loaded_foldl_stage, ih,
      CacheEntries.last?_append_singleton]
    by_cases hd : e.descriptor.same d = true
    · simp only [hd, if_true]
    · simp only [hd, if_false, Bool.false_eq_true]

theorem sorted_staged_stage (h : c.staged.Sorted) (e : CacheEntry) :
    (c.stage e).staged.Sorted := by
  rw [stage_eq]
  dsimp only
  split
  · exact h.erase _
  · exact h.put e

theorem sorted_staged_foldl_stage (h : c.staged.Sorted) (es : List CacheEntry) :
    (es.foldl stage c).staged.Sorted := by
  induction es generalizing c with
  | nil => exact h
  | cons e es ih => exact ih (sorted_staged_stage h e)

theorem eq_of_staged
    {c c' : Cache} (hdirectory : c.directory = c'.directory) (hanswers : c.answers = c'.answers)
    (hloaded : c.loaded = c'.loaded) (hstaged : c.staged = c'.staged) :
    c = c' := by
  cases c
  cases c'
  simp_all

@[simp]
theorem answers_stage (c : Cache) (e : CacheEntry) : (c.stage e).answers = c.answers := by
  rw [stage_eq]

@[simp]
theorem answers_foldl_stage (c : Cache) (es : List CacheEntry) :
    (es.foldl stage c).answers = c.answers := by
  induction es generalizing c with
  | nil => rfl
  | cons e es ih => rw [List.foldl_cons, ih, answers_stage]

/-- What is staged depends on the order of the entries only within each procedure. -/
theorem foldl_stage_congr
    (hc : c.staged.Sorted) (h : ∀ d, CacheEntries.last? es d = CacheEntries.last? fs d) :
    es.foldl stage c = fs.foldl stage c := by
  apply eq_of_staged
  · simp
  · simp
  · simp
  · refine (sorted_staged_foldl_stage hc es).ext (sorted_staged_foldl_stage hc fs) ?_
    intro d
    rw [get?_staged_foldl_stage, get?_staged_foldl_stage, h d]

end Cache

/-! ## Recordings -/

/-- A call that records a procedure, with the time at which it is made. -/
inductive Recording where
  | analysis (now : Timestamp) (a : Analysis)
  | reuse (now : Timestamp) (i : CollectionItem)

namespace Recording

def descriptor : Recording → Descriptor
  | .analysis _ a => a.descriptor
  | .reuse _ i => i.descriptor

def now : Recording → Timestamp
  | .analysis now _ => now
  | .reuse now _ => now

def lastModified : Recording → Option Timestamp
  | .analysis _ a => a.lastModified
  | .reuse _ i => i.lastModified

def dependencies : Recording → List Dependency
  | .analysis _ a => a.dependencies
  | .reuse _ i => i.dependencies

/-- The entry that the call records, if it carries a modify date. -/
def staged? (loaded : CacheEntries) : Recording → Option CacheEntry
  | .analysis now a => Cache.analysisRecord? now a
  | .reuse now i => Cache.reuseRecord? loaded now i

/-- The time of the call and the dates that it carries are instants. -/
structure IsDated (r : Recording) : Prop where
  now : r.now.IsInstant
  lastModified : ∀ t, r.lastModified = some t → t.IsInstant
  dependencies : ∀ d ∈ r.dependencies, d.IsDated

/-- The last entry that the calls record for a procedure. -/
def last? (loaded : CacheEntries) (calls : List Recording) (d : Descriptor) : Option CacheEntry :=
  CacheEntries.last? (calls.filterMap (staged? loaded)) d

/-- The map in which the last write wins: the last entry of the calls, or the loaded one where that
has the same fingerprint or there is none. -/
def lastWrite? (loaded : CacheEntries) (calls : List Recording) (d : Descriptor) :
    Option CacheEntry :=
  match last? loaded calls d, loaded.get? d with
  | some e, some old => some (if old.sameFingerprint e then old else e)
  | some e, none => some e
  | none, old => old

variable {loaded : CacheEntries} {r : Recording} {e : CacheEntry} {calls calls' : List Recording}

theorem descriptor_of_staged? (h : r.staged? loaded = some e) : e.descriptor = r.descriptor := by
  cases r with
  | analysis now a =>
    obtain ⟨t, -, rfl⟩ := Option.map_eq_some_iff.mp h
    rfl
  | reuse now i =>
    obtain ⟨t, -, rfl⟩ := Option.map_eq_some_iff.mp h
    rfl

theorem IsDated.isWellFormed_entry
    (h : r.IsDated) (hloaded : loaded.IsWellFormed) (he : r.staged? loaded = some e) :
    e.IsWellFormed := by
  have hcanonical : ∀ d ∈ Dependency.canonical r.dependencies, d.IsDated := fun d hd =>
    h.dependencies d (Dependency.mem_of_mem_canonical hd)
  cases r with
  | analysis now a =>
    obtain ⟨t, ht, rfl⟩ := Option.map_eq_some_iff.mp he
    exact ⟨h.lastModified t ht, h.now, hcanonical, Dependency.canonical_canonical _⟩
  | reuse now i =>
    obtain ⟨t, ht, rfl⟩ := Option.map_eq_some_iff.mp he
    refine ⟨h.lastModified t ht, ?_, hcanonical, Dependency.canonical_canonical _⟩
    cases hold : loaded.get? i.descriptor with
    | none => exact h.now
    | some old => exact (hloaded.entries old (CacheEntries.mem_of_get?_eq_some hold)).lastAnalyzed

theorem isWellFormed_entries
    (hdated : ∀ r ∈ calls, r.IsDated) (hloaded : loaded.IsWellFormed) :
    ∀ e ∈ calls.filterMap (staged? loaded), e.IsWellFormed := by
  intro e he
  obtain ⟨r, hr, hentry⟩ := List.mem_filterMap.mp he
  exact (hdated r hr).isWellFormed_entry hloaded hentry

/-- The entries of a procedure are those of its calls. -/
theorem filter_filterMap_staged?
    (loaded : CacheEntries) (calls : List Recording) (d : Descriptor) :
    (calls.filterMap (staged? loaded)).filter (·.descriptor.same d) =
      (calls.filter (·.descriptor.same d)).filterMap (staged? loaded) := by
  induction calls with
  | nil => rfl
  | cons r calls ih =>
    cases hentry : r.staged? loaded with
    | none =>
      rw [List.filterMap_cons_none hentry, ih, List.filter_cons]
      split
      · rw [List.filterMap_cons_none hentry]
      · rfl
    | some e =>
      rw [List.filterMap_cons_some hentry, List.filter_cons, List.filter_cons,
        descriptor_of_staged? hentry, ih]
      split
      · rw [List.filterMap_cons_some hentry]
      · rfl

theorem last?_congr
    (h : ∀ d, calls.filter (·.descriptor.same d) = calls'.filter (·.descriptor.same d))
    (loaded : CacheEntries) (d : Descriptor) :
    last? loaded calls d = last? loaded calls' d := by
  rw [last?, last?, CacheEntries.last?, CacheEntries.last?, filter_filterMap_staged?,
    filter_filterMap_staged?, h d]

end Recording

namespace Cache

variable {c : Cache}

def record (c : Cache) : Recording → Cache
  | .analysis now a => c.recordAnalysis now a
  | .reuse now i => c.recordReuse now i

theorem foldl_record
    (c : Cache) (calls : List Recording) :
    calls.foldl record c = (calls.filterMap (Recording.staged? c.loaded)).foldl stage c := by
  induction calls generalizing c with
  | nil => rfl
  | cons r calls ih =>
    have hstep : c.record r = ((r.staged? c.loaded).map c.stage).getD c := by
      cases r with
      | analysis now a =>
        simp only [record, recordAnalysis, Recording.staged?, analysisRecord?]
        cases a.lastModified <;> rfl
      | reuse now i =>
        simp only [record, recordReuse, Recording.staged?, reuseRecord?]
        cases i.lastModified <;> rfl
    rw [List.foldl_cons, ih, hstep]
    cases hentry : r.staged? c.loaded with
    | none => rw [List.filterMap_cons_none hentry]; rfl
    | some e =>
      rw [List.filterMap_cons_some hentry, List.foldl_cons]
      simp only [Option.map_some, Option.getD_some, loaded_stage]

/-- After the calls, the loaded entries with the staged ones in their places are the map of last
writes. -/
theorem get?_merged_foldl_record
    (hc : c.IsWellFormed) (hstaged : c.staged = []) {calls : List Recording}
    (hdated : ∀ r ∈ calls, r.IsDated) (d : Descriptor) :
    (calls.foldl record c).merged.get? d = Recording.lastWrite? c.loaded calls d := by
  rw [foldl_record, get?_merged (hc.foldl_stage (Recording.isWellFormed_entries hdated hc.loaded)),
    get?_staged_foldl_stage, loaded_foldl_stage, hstaged, Recording.lastWrite?, Recording.last?]
  cases hlast : CacheEntries.last? (calls.filterMap (Recording.staged? c.loaded)) d with
  | none => simp
  | some e =>
    have hsame := CacheEntries.same_of_last?_eq_some hlast
    simp only [CacheEntries.holds, CacheEntries.get?_congr hsame]
    cases hold : c.loaded.get? d with
    | none => simp
    | some old => by_cases hrepeats : old.sameFingerprint e = true <;> simp [hrepeats]

/-- Something is staged exactly if the last entry of some procedure is not what was loaded. -/
theorem staged_foldl_record_ne_nil_iff
    (hstaged : c.staged = []) (calls : List Recording) :
    (calls.foldl record c).staged ≠ [] ↔
      ∃ d e, Recording.last? c.loaded calls d = some e ∧
        ∀ old, c.loaded.get? d = some old → old.sameFingerprint e = false := by
  rw [foldl_record, CacheEntries.ne_nil_iff_exists_get?]
  refine exists_congr fun d => ?_
  rw [get?_staged_foldl_stage, hstaged, Recording.last?]
  cases hlast : CacheEntries.last? (calls.filterMap (Recording.staged? c.loaded)) d with
  | none => simp
  | some e =>
    have hsame := CacheEntries.same_of_last?_eq_some hlast
    simp only [CacheEntries.holds, CacheEntries.get?_congr hsame]
    cases hold : c.loaded.get? d with
    | none => simp
    | some old => by_cases hrepeats : old.sameFingerprint e = true <;> simp [hrepeats]

theorem foldl_record_congr
    (hstaged : c.staged = []) {calls calls' : List Recording}
    (h : ∀ d, calls.filter (·.descriptor.same d) = calls'.filter (·.descriptor.same d)) :
    calls.foldl record c = calls'.foldl record c := by
  rw [foldl_record, foldl_record]
  apply foldl_stage_congr
  · rw [hstaged]
    exact List.Pairwise.nil
  · exact Recording.last?_congr h c.loaded

/-- The cache at the start of a build on the disk. -/
def started (o : Options) (d : Disk) : Cache :=
  load o (d.contentOf o.cacheFile).toOption

theorem directory_started (o : Options) (d : Disk) :
    (started o d).directory = some o.cacheDirectory := by
  rw [started, load]

theorem loaded_started (o : Options) (d : Disk) :
    (started o d).loaded = CacheEntries.ofFile (d.contentOf o.cacheFile).toOption := by
  rw [started, load]

theorem get?_started_of_contentOf
    {o o' : Options} {d : Disk} {es : CacheEntries}
    (hroot : o'.projectRoot = o.projectRoot) (hanswers : o'.noCache = false)
    (h : CacheEntries.ofFile (d.contentOf o.cacheFile).toOption = es) (p : Descriptor) :
    (started o' d).get? p = es.get? p := by
  simp only [started, get?, load, hanswers, Bool.not_false, if_true,
    Options.cacheFile_congr hroot, h]

end Cache

end SqlSnapshot
