import Mathlib.Data.List.Pairwise
import Mathlib.Data.List.Sort
import SqlSnapshot.SortedDistinct

/-!
# Sorted lists without repeats

Where two tests compare elements by keys in a linear order, a list that is sorted without repeats
is strictly increasing, has every key of the list that it comes from, and is its own sorted form.
-/

namespace SqlSnapshot

/-- Of a list without two elements of one key, at most one has a given key. -/
theorem eq_of_pairwise_ne {α κ : Type} {key : α → κ} {as : List α}
    (h : as.Pairwise fun a b => key a ≠ key b) {a b : α} (ha : a ∈ as) (hb : b ∈ as)
    (hkey : key a = key b) : a = b := by
  by_contra hne
  have hsymm : Std.Symm fun a b : α => key a ≠ key b := ⟨fun _ _ hab => hab.symm⟩
  exact h.forall ha hb hne hkey

variable {α κ : Type} [LinearOrder κ]

/-- The two tests compare elements by their keys. -/
structure OrderedBy (isAtMost same : α → α → Bool) (key : α → κ) : Prop where
  isAtMost_iff : ∀ a b, isAtMost a b = true ↔ key a ≤ key b
  same_iff : ∀ a b, same a b = true ↔ key a = key b

variable {isAtMost same : α → α → Bool} {key : α → κ}

theorem OrderedBy.isAtMost_trans (hord : OrderedBy isAtMost same key) (a b c : α)
    (hab : isAtMost a b = true) (hbc : isAtMost b c = true) : isAtMost a c = true := by
  rw [hord.isAtMost_iff] at hab hbc ⊢
  exact hab.trans hbc

theorem OrderedBy.isAtMost_total (hord : OrderedBy isAtMost same key) (a b : α) :
    (isAtMost a b || isAtMost b a) = true := by
  rw [Bool.or_eq_true, hord.isAtMost_iff, hord.isAtMost_iff]
  exact le_total _ _

theorem mem_of_mem_dropRepeats {a : α} {as : List α} (h : a ∈ dropRepeats same as) : a ∈ as := by
  induction as with
  | nil => simp [dropRepeats] at h
  | cons b as ih =>
    simp only [dropRepeats] at h
    split at h
    · simp_all
    · rename_i c cs hrest
      rw [hrest] at ih
      split at h
      · rcases List.mem_cons.mp h with rfl | hmem
        · exact List.mem_cons_self
        · exact List.mem_cons_of_mem _ (ih (List.mem_cons_of_mem _ hmem))
      · rcases List.mem_cons.mp h with rfl | hmem
        · exact List.mem_cons_self
        · exact List.mem_cons_of_mem _ (ih hmem)

theorem exists_mem_dropRepeats (hord : OrderedBy isAtMost same key) {a : α} {as : List α}
    (h : a ∈ as) : ∃ b ∈ dropRepeats same as, key b = key a := by
  induction as with
  | nil => simp at h
  | cons c as ih =>
    simp only [dropRepeats]
    cases hrest : dropRepeats same as with
    | nil =>
      rcases List.mem_cons.mp h with rfl | hmem
      · exact ⟨a, by simp, rfl⟩
      · obtain ⟨b, hb, -⟩ := ih hmem
        simp [hrest] at hb
    | cons d ds =>
      rw [hrest] at ih
      by_cases hsame : same c d = true
      · simp only [hsame, if_true]
        have hkey := (hord.same_iff c d).mp hsame
        rcases List.mem_cons.mp h with rfl | hmem
        · exact ⟨a, List.mem_cons_self, rfl⟩
        · obtain ⟨b, hb, hba⟩ := ih hmem
          rcases List.mem_cons.mp hb with rfl | hb
          · exact ⟨c, List.mem_cons_self, hkey.trans hba⟩
          · exact ⟨b, List.mem_cons_of_mem _ hb, hba⟩
      · simp only [hsame]
        rcases List.mem_cons.mp h with rfl | hmem
        · exact ⟨a, by simp, rfl⟩
        · obtain ⟨b, hb, hba⟩ := ih hmem
          exact ⟨b, by simpa using Or.inr (List.mem_cons.mp hb), hba⟩

theorem pairwise_dropRepeats (hord : OrderedBy isAtMost same key) {as : List α}
    (h : as.Pairwise fun a b => key a ≤ key b) :
    (dropRepeats same as).Pairwise fun a b => key a < key b := by
  induction as with
  | nil => simp [dropRepeats]
  | cons c as ih =>
    rw [List.pairwise_cons] at h
    have hrest := ih h.2
    simp only [dropRepeats]
    cases hform : dropRepeats same as with
    | nil => simp
    | cons d ds =>
      rw [hform] at hrest
      have hmem : d ∈ dropRepeats same as := by
        rw [hform]
        exact List.mem_cons_self
      have hcd : key c ≤ key d := h.1 d (mem_of_mem_dropRepeats hmem)
      rw [List.pairwise_cons] at hrest
      by_cases hsame : same c d = true
      · simp only [hsame, if_true]
        rw [List.pairwise_cons]
        refine ⟨fun b hb => ?_, hrest.2⟩
        rw [(hord.same_iff c d).mp hsame]
        exact hrest.1 b hb
      · simp only [hsame]
        have hne : key c ≠ key d := fun heq => hsame ((hord.same_iff c d).mpr heq)
        have hlt : key c < key d := lt_of_le_of_ne hcd hne
        refine List.pairwise_cons.mpr ⟨fun b hb => ?_, List.pairwise_cons.mpr hrest⟩
        rcases List.mem_cons.mp hb with rfl | hb
        · exact hlt
        · exact hlt.trans (hrest.1 b hb)

theorem dropRepeats_eq_self (hord : OrderedBy isAtMost same key) {as : List α}
    (h : as.Pairwise fun a b => key a < key b) : dropRepeats same as = as := by
  induction as with
  | nil => rfl
  | cons a as ih =>
    rw [List.pairwise_cons] at h
    simp only [dropRepeats, ih h.2]
    cases as with
    | nil => rfl
    | cons b bs =>
      have hsame : same a b ≠ true := fun heq =>
        (h.1 b List.mem_cons_self).ne ((hord.same_iff a b).mp heq)
      simp [hsame]

theorem mem_of_mem_sortedDistinctBy {a : α} {as : List α}
    (h : a ∈ sortedDistinctBy isAtMost same as) : a ∈ as :=
  List.mem_mergeSort.mp (mem_of_mem_dropRepeats h)

theorem exists_mem_sortedDistinctBy (hord : OrderedBy isAtMost same key) {a : α} {as : List α}
    (h : a ∈ as) : ∃ b ∈ sortedDistinctBy isAtMost same as, key b = key a :=
  exists_mem_dropRepeats hord (List.mem_mergeSort.mpr h)

theorem pairwise_sortedDistinctBy (hord : OrderedBy isAtMost same key) (as : List α) :
    (sortedDistinctBy isAtMost same as).Pairwise fun a b => key a < key b := by
  apply pairwise_dropRepeats hord
  exact (List.pairwise_mergeSort hord.isAtMost_trans hord.isAtMost_total as).imp fun h =>
    (hord.isAtMost_iff _ _).mp h

/-- Elements of one key keep their order when the list is sorted. -/
theorem filter_mergeSort (hord : OrderedBy isAtMost same key) (as : List α) (a : α) :
    (as.mergeSort isAtMost).filter (same · a) = as.filter (same · a) := by
  have hkey : ∀ b ∈ as.filter (same · a), key b = key a := fun b hb =>
    (hord.same_iff b a).mp (List.mem_filter.mp hb).2
  have hsorted : (as.filter (same · a)).Pairwise fun b c => isAtMost b c = true :=
    List.pairwise_of_forall_mem_list fun b hb c hc =>
      (hord.isAtMost_iff b c).mpr ((hkey b hb).trans (hkey c hc).symm).le
  have hsublist : (as.filter (same · a)).Sublist (as.mergeSort isAtMost) :=
    List.sublist_mergeSort hord.isAtMost_trans hord.isAtMost_total hsorted List.filter_sublist
  have hfiltered := hsublist.filter (same · a)
  rw [List.filter_filter] at hfiltered
  simp only [Bool.and_self] at hfiltered
  exact (hfiltered.eq_of_length ((List.mergeSort_perm as isAtMost).filter _).length_eq.symm).symm

theorem find?_mergeSort (hord : OrderedBy isAtMost same key) (as : List α) (a : α) :
    (as.mergeSort isAtMost).find? (same · a) = as.find? (same · a) := by
  rw [← List.head?_filter, filter_mergeSort hord, List.head?_filter]

theorem find?_dropRepeats (hord : OrderedBy isAtMost same key) (as : List α) (a : α) :
    (dropRepeats same as).find? (same · a) = as.find? (same · a) := by
  induction as with
  | nil => rfl
  | cons b as ih =>
    rw [List.find?_cons, ← ih, dropRepeats]
    cases hrest : dropRepeats same as with
    | nil => rw [List.find?_cons]
    | cons c cs =>
      by_cases hsame : same b c = true
      · have hboth : same c a = same b a := by
          rw [Bool.eq_iff_iff, hord.same_iff, hord.same_iff, (hord.same_iff b c).mp hsame]
        simp only [hsame, if_true, List.find?_cons, hboth]
        cases same b a <;> rfl
      · simp only [hsame]
        rfl

/-- Of the elements of one key, the first is the one that is kept. -/
theorem find?_sortedDistinctBy (hord : OrderedBy isAtMost same key) (as : List α) (a : α) :
    (sortedDistinctBy isAtMost same as).find? (same · a) = as.find? (same · a) :=
  (find?_dropRepeats hord _ a).trans (find?_mergeSort hord as a)

theorem eq_of_mem_sortedDistinctBy (hord : OrderedBy isAtMost same key) {as : List α} {a b : α}
    (ha : a ∈ sortedDistinctBy isAtMost same as) (hb : b ∈ sortedDistinctBy isAtMost same as)
    (h : key a = key b) : a = b :=
  eq_of_pairwise_ne ((pairwise_sortedDistinctBy hord as).imp fun hlt => hlt.ne) ha hb h

theorem sortedDistinctBy_eq_self (hord : OrderedBy isAtMost same key) {as : List α}
    (h : as.Pairwise fun a b => key a < key b) : sortedDistinctBy isAtMost same as = as := by
  have hsorted : as.Pairwise fun a b => isAtMost a b = true :=
    h.imp fun hlt => (hord.isAtMost_iff _ _).mpr hlt.le
  rw [sortedDistinctBy, List.mergeSort_of_pairwise hsorted]
  exact dropRepeats_eq_self hord h

theorem mem_sortedDistinctBy_iff (hord : OrderedBy isAtMost same key) {as : List α}
    (hkeys : ∀ a ∈ as, ∀ b ∈ as, key a = key b → a = b) {a : α} :
    a ∈ sortedDistinctBy isAtMost same as ↔ a ∈ as := by
  constructor
  · exact mem_of_mem_sortedDistinctBy
  · intro ha
    obtain ⟨b, hb, hkey⟩ := exists_mem_sortedDistinctBy hord ha
    exact hkeys b (mem_of_mem_sortedDistinctBy hb) a ha hkey ▸ hb

/-- Where no two elements have the same key, the sorted form depends on the members alone. -/
theorem sortedDistinctBy_congr (hord : OrderedBy isAtMost same key) {as bs : List α}
    (hmem : ∀ a, a ∈ as ↔ a ∈ bs) (hkeys : ∀ a ∈ as, ∀ b ∈ as, key a = key b → a = b) :
    sortedDistinctBy isAtMost same as = sortedDistinctBy isAtMost same bs := by
  have hkeys' : ∀ a ∈ bs, ∀ b ∈ bs, key a = key b → a = b := fun a ha b hb =>
    hkeys a ((hmem a).mpr ha) b ((hmem b).mpr hb)
  have hirrefl : Std.Irrefl fun a b : α => key a < key b := ⟨fun a => lt_irrefl (key a)⟩
  have hasymm : Std.Antisymm fun a b : α => key a < key b :=
    ⟨fun a b hab hba => absurd hab hba.asymm⟩
  apply (pairwise_sortedDistinctBy hord as).eq_of_mem_iff (pairwise_sortedDistinctBy hord bs)
  intro a
  rw [mem_sortedDistinctBy_iff hord hkeys, mem_sortedDistinctBy_iff hord hkeys', hmem]

end SqlSnapshot
