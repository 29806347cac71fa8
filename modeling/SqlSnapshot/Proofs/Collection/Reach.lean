import Mathlib.Data.List.Nodup
import Mathlib.Data.List.Perm.Subperm
import Mathlib.Logic.Relation
import SqlSnapshot.Collection.Graph

/-!
# What the search along references finds

The search keeps the keys that it has found apart from those whose references it has followed.
`Search` says what holds of the two lists at every step: nothing is found twice, nothing is found
that cannot be reached, and the references of what was followed have been found.  Every step
follows the references of one more procedure, so that at the end none are left.
-/

namespace SqlSnapshot.ReferenceGraph

open Relation

/-! ## Appending what is new -/

theorem exists_appendNew_eq
    (known ks : List String) :
    ∃ new, appendNew known ks = known ++ new := by
  induction ks generalizing known with
  | nil => exact ⟨[], by simp [appendNew]⟩
  | cons k ks ih =>
    simp only [appendNew]
    by_cases hknown : known.contains k = true
    · simp only [hknown, if_true]
      exact ih known
    · simp only [hknown]
      obtain ⟨new, hnew⟩ := ih (known ++ [k])
      exact ⟨k :: new, by simp [hnew]⟩

theorem mem_appendNew
    {known ks : List String} {k : String} :
    k ∈ appendNew known ks ↔ k ∈ known ∨ k ∈ ks := by
  induction ks generalizing known with
  | nil => simp [appendNew]
  | cons j ks ih =>
    simp only [appendNew]
    by_cases hknown : known.contains j = true
    · simp only [hknown, if_true, ih, List.mem_cons]
      constructor
      · rintro (h | h)
        · exact Or.inl h
        · exact Or.inr (Or.inr h)
      · rintro (h | rfl | h)
        · exact Or.inl h
        · exact Or.inl (by simpa using hknown)
        · exact Or.inr h
    · simp only [hknown]
      simp only [Bool.false_eq_true, if_false, ih, List.mem_append, List.mem_cons]
      tauto

theorem nodup_appendNew
    {known : List String} (h : known.Nodup) (ks : List String) :
    (appendNew known ks).Nodup := by
  induction ks generalizing known with
  | nil => exact h
  | cons k ks ih =>
    simp only [appendNew]
    by_cases hknown : known.contains k = true
    · simp only [hknown, if_true]
      exact ih h
    · simp only [hknown]
      apply ih
      have hnew : k ∉ known := by simpa using hknown
      simpa [List.nodup_append] using ⟨h, fun a ha heq => hnew (heq ▸ ha)⟩

/-! ## The invariant of the search -/

/-- The procedure of one key refers to that of another. -/
def Refers (g : ReferenceGraph) (a b : String) : Prop :=
  b ∈ g.successors a

/-- Where the search is after following the references of the procedures that are `done`. -/
structure Search (g : ReferenceGraph) (seeds done pending : List String) : Prop where
  nodup : (done ++ pending).Nodup
  seeded : ∀ s ∈ seeds, s ∈ done ++ pending
  followed : ∀ a ∈ done, ∀ b, g.Refers a b → b ∈ done ++ pending
  reached : ∀ k ∈ done ++ pending, ∃ s ∈ seeds, ReflTransGen g.Refers s k

variable {g : ReferenceGraph} {seeds done pending : List String} {key : String}

theorem search_start (g : ReferenceGraph) (seeds : List String) :
    Search g seeds [] (appendNew [] seeds) where
  nodup := nodup_appendNew List.nodup_nil seeds
  seeded := by
    intro s hs
    exact mem_appendNew.mpr (Or.inr hs)
  followed := by
    intro a ha
    simp at ha
  reached := by
    intro k hk
    rw [List.nil_append, mem_appendNew] at hk
    rcases hk with hk | hk
    · simp at hk
    · exact ⟨k, hk, ReflTransGen.refl⟩

/-- What is found by following the references of one procedure. -/
theorem Search.step
    (h : Search g seeds done (key :: pending)) :
    Search g seeds (done ++ [key])
      ((appendNew (done ++ key :: pending) (g.successors key)).drop (done.length + 1)) := by
  obtain ⟨new, hnew⟩ := exists_appendNew_eq (done ++ key :: pending) (g.successors key)
  have hfound : done ++ [key] ++
      (appendNew (done ++ key :: pending) (g.successors key)).drop (done.length + 1) =
        appendNew (done ++ key :: pending) (g.successors key) := by
    have hlength : (done ++ [key]).length = done.length + 1 := by simp
    rw [hnew, ← hlength, show done ++ key :: pending = done ++ [key] ++ pending by simp,
      List.append_assoc (done ++ [key]), List.drop_left]
  constructor
  · rw [hfound]
    exact nodup_appendNew h.nodup _
  · intro s hs
    rw [hfound, mem_appendNew]
    exact Or.inl (h.seeded s hs)
  · intro a ha b hab
    rw [hfound, mem_appendNew]
    rcases List.mem_append.mp ha with ha | ha
    · exact Or.inl (h.followed a ha b hab)
    · rw [List.mem_singleton.mp ha] at hab
      exact Or.inr hab
  · intro k hk
    rw [hfound, mem_appendNew] at hk
    rcases hk with hk | hk
    · exact h.reached k hk
    · obtain ⟨s, hs, hpath⟩ := h.reached key (by simp)
      exact ⟨s, hs, hpath.tail hk⟩

theorem Search.isProcedure
    (h : Search g seeds done pending) (hseeds : ∀ s ∈ seeds, g.isProcedure s = true)
    {k : String} (hk : k ∈ done ++ pending) :
    g.isProcedure k = true := by
  obtain ⟨s, hs, hpath⟩ := h.reached k hk
  rcases ReflTransGen.cases_tail hpath with heq | ⟨a, -, hab⟩
  · rw [heq]
    exact hseeds s hs
  · exact (List.mem_filter.mp hab).2

theorem isProcedure_iff
    {k : String} :
    g.isProcedure k = true ↔ ∃ row, (k, row) ∈ g.rows := by
  constructor
  · intro h
    simp only [isProcedure, row?, Option.isSome_map, List.findRev?_eq_find?_reverse,
      List.find?_isSome, List.mem_reverse, beq_iff_eq] at h
    obtain ⟨⟨j, row⟩, hmem, rfl⟩ := h
    exact ⟨row, hmem⟩
  · rintro ⟨row, hmem⟩
    simp only [isProcedure, row?, Option.isSome_map, List.findRev?_eq_find?_reverse,
      List.find?_isSome, List.mem_reverse, beq_iff_eq]
    exact ⟨(k, row), hmem, rfl⟩

theorem Search.length_le
    (h : Search g seeds done pending) (hseeds : ∀ s ∈ seeds, g.isProcedure s = true) :
    done.length + pending.length ≤ g.rows.length := by
  have hsubset : done ++ pending ⊆ g.rows.map (·.1) := by
    intro k hk
    obtain ⟨row, hmem⟩ := isProcedure_iff.mp (h.isProcedure hseeds hk)
    exact List.mem_map_of_mem (f := (·.1)) hmem
  have hlength := (h.nodup.subperm hsubset).length_le
  simpa using hlength

theorem Search.explore
    (h : Search g seeds done pending) (hseeds : ∀ s ∈ seeds, g.isProcedure s = true)
    {steps : Nat} (hsteps : g.rows.length ≤ done.length + steps) :
    Search g seeds (g.explore steps done pending) [] := by
  induction steps generalizing done pending with
  | zero =>
    have hlength := h.length_le hseeds
    obtain rfl : pending = [] := List.eq_nil_of_length_eq_zero (by omega)
    simpa [ReferenceGraph.explore] using h
  | succ steps ih =>
    cases pending with
    | nil => exact h
    | cons key pending =>
      apply ih h.step
      simp only [List.length_append, List.length_singleton]
      omega

/-! ## The keys that are reached -/

theorem search_reach
    (hseeds : ∀ s ∈ seeds, g.isProcedure s = true) :
    Search g seeds (g.reach seeds) [] :=
  (search_start g seeds).explore hseeds (by simp)

/-- The search finds exactly what can be reached along references. -/
theorem mem_reach_iff
    (hseeds : ∀ s ∈ seeds, g.isProcedure s = true) {k : String} :
    k ∈ g.reach seeds ↔ ∃ s ∈ seeds, ReflTransGen g.Refers s k := by
  have hsearch := search_reach hseeds
  constructor
  · intro hk
    exact hsearch.reached k (by simpa using hk)
  · rintro ⟨s, hs, hpath⟩
    induction hpath with
    | refl => simpa using hsearch.seeded s hs
    | tail _ hab ih => simpa using hsearch.followed _ ih _ hab

end SqlSnapshot.ReferenceGraph
