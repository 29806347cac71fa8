import SqlSnapshot.Proofs.NameOrder

/-!
# Canonical dependencies

The canonical form of a list of dependencies is strictly increasing and holds, for each target of
the list, the entry that comes first there, with its spelling and its date.  The order of the list
counts for nothing else: where entries of one target are equal, any order of them has the same
canonical form.
-/

namespace SqlSnapshot.Dependency

theorem sameTarget_self (d : Dependency) : d.sameTarget d = true :=
  (sameTarget_iff d d).mpr rfl

/-- Of the entries of one target, the first is kept, and no other. -/
theorem mem_canonical_and_sameTarget_iff
    {ds : List Dependency} {d first : Dependency}
    (hfirst : ds.find? (·.sameTarget d) = some first) (e : Dependency) :
    e ∈ canonical ds ∧ e.sameTarget d = true ↔ e = first := by
  have hkept : (canonical ds).find? (·.sameTarget d) = some first :=
    (find?_sortedDistinctBy orderedBy ds d).trans hfirst
  have hmem : first ∈ canonical ds := List.mem_of_find?_eq_some hkept
  have hsame : first.sameTarget d = true := by simpa using List.find?_some hfirst
  constructor
  · rintro ⟨he, htarget⟩
    have hkeys : e.targetKey = first.targetKey :=
      ((sameTarget_iff e d).mp htarget).trans ((sameTarget_iff first d).mp hsame).symm
    exact eq_of_mem_sortedDistinctBy orderedBy he hmem hkeys
  · rintro rfl
    exact ⟨hmem, hsame⟩

theorem canonical_eq_of_perm
    {ds es : List Dependency} (hperm : ds.Perm es)
    (hequal : ∀ d ∈ ds, ∀ e ∈ ds, d.sameTarget e = true → d = e) :
    canonical es = canonical ds :=
  (sortedDistinctBy_congr orderedBy (fun _ => hperm.mem_iff) fun d hd e he hkey =>
    hequal d hd e he ((sameTarget_iff d e).mpr hkey)).symm

/-- The canonical form is strictly increasing, comes from the list, holds for each target of the
list its first entry and nothing else, is its own canonical form, and is the same for every order of
a list whose entries of one target are equal. -/
theorem canonical_keeps_first (ds : List Dependency) :
    (canonical ds).Pairwise (fun a b => a.compareTarget b = .lt) ∧
      (∀ d ∈ canonical ds, d ∈ ds) ∧
      (∀ d ∈ ds, ∃ first, ds.find? (·.sameTarget d) = some first ∧
        ∀ e, e ∈ canonical ds ∧ e.sameTarget d = true ↔ e = first) ∧
      canonical (canonical ds) = canonical ds ∧
      ∀ es, ds.Perm es → (∀ d ∈ ds, ∀ e ∈ ds, d.sameTarget e = true → d = e) →
        canonical es = canonical ds := by
  refine ⟨?_, fun d => mem_of_mem_canonical, ?_, canonical_canonical ds,
    fun es => canonical_eq_of_perm⟩
  · exact (pairwise_canonical ds).imp fun hlt => (compareTarget_eq_lt_iff _ _).mpr hlt
  · intro d hd
    have hfound : (ds.find? (·.sameTarget d)).isSome :=
      List.find?_isSome.mpr ⟨d, hd, sameTarget_self d⟩
    obtain ⟨first, hfirst⟩ := Option.isSome_iff_exists.mp hfound
    exact ⟨first, hfirst, mem_canonical_and_sameTarget_iff hfirst⟩

/-- Of two spellings of one table the first stays, and so does its date. -/
theorem canonical_keeps_first_sample :
    let users : Dependency := ⟨.table, "dbo", "Users", some ⟨3, 0⟩⟩
    let same : Dependency := ⟨.table, "DBO", "users", none⟩
    let list : Dependency := ⟨.procedure, "dbo", "List", none⟩
    (∀ e, e ∈ canonical [users, list, same] ∧ e.sameTarget same = true ↔ e = users) ∧
      [users, list].Perm [list, users] ∧
      (∀ d ∈ [users, list], ∀ e ∈ [users, list], d.sameTarget e = true → d = e) ∧
      canonical [list, users] = canonical [users, list] := by
  intro users same list
  have hequal : ∀ d ∈ [users, list], ∀ e ∈ [users, list], d.sameTarget e = true → d = e := by
    decide +kernel
  have hperm : [users, list].Perm [list, users] := .swap list users []
  obtain ⟨-, -, hkeeps, -⟩ := canonical_keeps_first [users, list, same]
  obtain ⟨first, hfirst, hkept⟩ := hkeeps same (by simp)
  have hfound : [users, list, same].find? (·.sameTarget same) = some users := by decide +kernel
  obtain rfl : users = first := Option.some.inj (hfound.symm.trans hfirst)
  exact ⟨hkept, hperm, hequal, (canonical_keeps_first [users, list]).2.2.2.2 _ hperm hequal⟩

end SqlSnapshot.Dependency
