import SqlSnapshot.Cache.Entry
import SqlSnapshot.Proofs.NameOrder

/-!
# Entries as a map

What a look-up gives after an entry was put or erased, and that entries in increasing order stay in
order.  A list in order is what comes of putting its entries one after the other.
-/

namespace SqlSnapshot.CacheEntries

variable {es : CacheEntries} {e f : CacheEntry} {d : Descriptor}

/-- The entries stand in the strictly increasing order of their procedures. -/
def Sorted (es : CacheEntries) : Prop :=
  es.Pairwise fun a b => a.descriptor.orderKey < b.descriptor.orderKey

/-! ## Looking up -/

@[simp]
theorem get?_nil (d : Descriptor) : get? [] d = none := rfl

theorem get?_cons (e : CacheEntry) (es : CacheEntries) (d : Descriptor) :
    get? (e :: es) d = if e.descriptor.same d then some e else get? es d := by
  simp only [get?, List.find?_cons]
  split <;> simp_all

theorem get?_congr
    {d' : Descriptor} (h : d.same d' = true) (es : CacheEntries) :
    es.get? d = es.get? d' := by
  simp only [get?, Descriptor.same_congr_right h]

theorem same_of_get?_eq_some
    (h : es.get? d = some e) :
    e.descriptor.same d = true := by
  have hfound := List.find?_some h
  exact hfound

theorem mem_of_get?_eq_some
    (h : es.get? d = some e) :
    e ∈ es :=
  List.mem_of_find?_eq_some h

theorem get?_of_mem
    (hsorted : es.Sorted) (h : e ∈ es) :
    es.get? e.descriptor = some e := by
  induction es with
  | nil => simp at h
  | cons f es ih =>
    rw [get?_cons]
    obtain ⟨hfirst, hrest⟩ := List.pairwise_cons.mp hsorted
    rcases List.mem_cons.mp h with rfl | h
    · simp [Descriptor.same_refl]
    · have hne : f.descriptor.same e.descriptor = false := by
        rw [Bool.eq_false_iff, ne_eq, Descriptor.same_iff]
        exact (hfirst e h).ne
      rw [hne]
      exact ih hrest h

/-! ## Putting -/

theorem get?_put
    (e : CacheEntry) (es : CacheEntries) (d : Descriptor) :
    (put e es).get? d = if e.descriptor.same d then some e else es.get? d := by
  induction es with
  | nil => simp [put, get?_cons]
  | cons f es ih =>
    simp only [put]
    cases hcompare : e.descriptor.compare f.descriptor with
    | lt => rw [get?_cons]
    | eq =>
      have hsame : e.descriptor.same f.descriptor = true := by simp [Descriptor.same, hcompare]
      simp only [get?_cons, Descriptor.same_congr_left hsame]
      split <;> rfl
    | gt =>
      have hother : e.descriptor.same d = true → f.descriptor.same d = false := by
        intro hd
        rw [← Descriptor.same_congr_right hd, Descriptor.same_comm]
        simp [Descriptor.same, hcompare]
      simp only [get?_cons, ih]
      by_cases hd : e.descriptor.same d = true
      · simp [hd, hother hd]
      · simp [hd]

theorem mem_put
    (h : f ∈ put e es) :
    f = e ∨ f ∈ es := by
  induction es with
  | nil => simpa [put] using h
  | cons g es ih =>
    simp only [put] at h
    split at h
    · simpa using h
    · rcases List.mem_cons.mp h with rfl | h
      · exact Or.inl rfl
      · exact Or.inr (List.mem_cons_of_mem _ h)
    · rcases List.mem_cons.mp h with rfl | h
      · exact Or.inr List.mem_cons_self
      · rcases ih h with rfl | h
        · exact Or.inl rfl
        · exact Or.inr (List.mem_cons_of_mem _ h)

theorem Sorted.put
    (h : es.Sorted) (e : CacheEntry) :
    (put e es).Sorted := by
  induction es with
  | nil => simp [CacheEntries.put, Sorted]
  | cons f es ih =>
    obtain ⟨hfirst, hrest⟩ := List.pairwise_cons.mp h
    simp only [CacheEntries.put]
    cases hcompare : e.descriptor.compare f.descriptor with
    | lt =>
      have hlt := (Descriptor.compare_eq_lt_iff _ _).mp hcompare
      refine List.pairwise_cons.mpr ⟨?_, h⟩
      intro g hg
      rcases List.mem_cons.mp hg with rfl | hg
      · exact hlt
      · exact hlt.trans (hfirst g hg)
    | eq =>
      have heq := (Descriptor.compare_eq_eq_iff _ _).mp hcompare
      refine List.pairwise_cons.mpr ⟨?_, hrest⟩
      intro g hg
      rw [heq]
      exact hfirst g hg
    | gt =>
      have hgt := (Descriptor.compare_eq_gt_iff _ _).mp hcompare
      refine List.pairwise_cons.mpr ⟨?_, ih hrest⟩
      intro g hg
      rcases mem_put hg with rfl | hg
      · exact hgt
      · exact hfirst g hg

/-! ## Putting many -/

theorem mem_putAll
    {added : CacheEntries} (h : f ∈ putAll es added) :
    f ∈ added ∨ f ∈ es := by
  induction added generalizing es with
  | nil => exact Or.inr h
  | cons e added ih =>
    rcases ih h with h | h
    · exact Or.inl (List.mem_cons_of_mem _ h)
    · rcases mem_put h with rfl | h
      · exact Or.inl List.mem_cons_self
      · exact Or.inr h

theorem Sorted.putAll
    (h : es.Sorted) (added : CacheEntries) :
    (putAll es added).Sorted := by
  induction added generalizing es with
  | nil => exact h
  | cons e added ih => exact ih (h.put e)

theorem get?_putAll
    {added : CacheEntries} (hadded : added.Sorted) (es : CacheEntries) (d : Descriptor) :
    (putAll es added).get? d = (added.get? d).or (es.get? d) := by
  induction added generalizing es with
  | nil => simp [putAll]
  | cons e added ih =>
    obtain ⟨hfirst, hrest⟩ := List.pairwise_cons.mp hadded
    have hput : putAll es (e :: added) = putAll (CacheEntries.put e es) added := rfl
    rw [hput, ih hrest, get?_put, get?_cons]
    by_cases hd : e.descriptor.same d = true
    · have hnone : get? added d = none := by
        rw [← get?_congr hd, get?, List.find?_eq_none]
        intro g hg
        rw [Descriptor.same_iff]
        exact (hfirst g hg).ne'
      simp [hd, hnone]
    · simp [hd]

theorem put_of_forall_lt
    (h : ∀ f ∈ es, f.descriptor.orderKey < e.descriptor.orderKey) :
    put e es = es ++ [e] := by
  induction es with
  | nil => rfl
  | cons f es ih =>
    have hcompare : e.descriptor.compare f.descriptor = .gt :=
      (Descriptor.compare_eq_gt_iff _ _).mpr (h f List.mem_cons_self)
    simp only [put, hcompare, List.cons_append, List.cons.injEq, true_and]
    exact ih fun g hg => h g (List.mem_cons_of_mem _ hg)

theorem putAll_eq_append
    {added : CacheEntries} (h : Sorted (es ++ added)) :
    putAll es added = es ++ added := by
  induction added generalizing es with
  | nil => simp [putAll]
  | cons e added ih =>
    have hput : put e es = es ++ [e] := by
      apply put_of_forall_lt
      intro f hf
      exact (List.pairwise_append.mp h).2.2 f hf e List.mem_cons_self
    have hstep : putAll es (e :: added) = putAll (es ++ [e]) added := by
      rw [← hput]
      rfl
    rw [hstep, ih (by simpa [Sorted] using h), List.append_assoc, List.singleton_append]

/-! ## Erasing -/

theorem get?_erase
    (es : CacheEntries) (d d' : Descriptor) :
    (es.erase d).get? d' = if d.same d' then none else es.get? d' := by
  induction es with
  | nil => simp [erase]
  | cons e es ih =>
    simp only [erase, List.filter_cons] at ih ⊢
    by_cases hd : e.descriptor.same d = true
    · simp only [hd, Bool.not_true, Bool.false_eq_true, if_false, ih, get?_cons,
        Descriptor.same_congr_left hd]
      split <;> rfl
    · simp only [hd, Bool.not_false, if_true, get?_cons, ih]
      by_cases hd' : d.same d' = true
      · have hother : e.descriptor.same d' = false := by
          rw [← Descriptor.same_congr_right hd']
          simpa using hd
        simp [hd', hother]
      · simp [hd']

theorem Sorted.erase
    (h : es.Sorted) (d : Descriptor) :
    (es.erase d).Sorted :=
  h.filter _

end SqlSnapshot.CacheEntries
