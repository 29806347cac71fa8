import Mathlib.Data.Char
import Mathlib.Data.List.Lex
import Mathlib.Data.Prod.Lex
import SqlSnapshot.Dependency
import SqlSnapshot.Proofs.SortedDistinct

/-!
# The order of names

Names compare by their characters in lower case, and so descriptors and the targets of
dependencies have keys in linear orders.  The canonical form of dependencies is therefore strictly
increasing, and canonical lists are their own canonical forms.
-/

namespace SqlSnapshot

theorem compareNames_eq_lt_iff (a b : String) :
    compareNames a b = .lt ↔ Text.caseKey a < Text.caseKey b :=
  compareOfLessAndEq_eq_lt

theorem compareNames_eq_eq_iff (a b : String) :
    compareNames a b = .eq ↔ Text.caseKey a = Text.caseKey b :=
  compareOfLessAndEq_eq_eq le_refl not_le

/-! ## Descriptors -/

namespace Descriptor

/-- Schema and name in lower case. -/
def orderKey (d : Descriptor) : List Char ×ₗ List Char :=
  toLex (Text.caseKey d.schema, Text.caseKey d.name)

theorem compare_eq_lt_iff (a b : Descriptor) : a.compare b = .lt ↔ a.orderKey < b.orderKey := by
  simp only [compare, Ordering.then_eq_lt, compareNames_eq_lt_iff, compareNames_eq_eq_iff, orderKey,
    Prod.Lex.toLex_lt_toLex]

theorem compare_eq_eq_iff (a b : Descriptor) : a.compare b = .eq ↔ a.orderKey = b.orderKey := by
  simp only [compare, Ordering.then_eq_eq, compareNames_eq_eq_iff, orderKey, toLex_inj,
    Prod.mk.injEq]

theorem compare_eq_gt_iff (a b : Descriptor) : a.compare b = .gt ↔ b.orderKey < a.orderKey := by
  constructor
  · intro h
    rcases lt_trichotomy a.orderKey b.orderKey with hlt | heq | hgt
    · rw [(compare_eq_lt_iff a b).mpr hlt] at h
      contradiction
    · rw [(compare_eq_eq_iff a b).mpr heq] at h
      contradiction
    · exact hgt
  · intro h
    cases hcompare : a.compare b with
    | lt => exact absurd ((compare_eq_lt_iff a b).mp hcompare) h.asymm
    | eq => exact absurd ((compare_eq_eq_iff a b).mp hcompare) h.ne'
    | gt => rfl

theorem same_iff (a b : Descriptor) : a.same b = true ↔ a.orderKey = b.orderKey := by
  simp only [same, beq_iff_eq, compare_eq_eq_iff]

theorem same_iff_caseKey_eq
    {a b : Descriptor} :
    a.same b = true ↔
      Text.caseKey a.schema = Text.caseKey b.schema ∧
        Text.caseKey a.name = Text.caseKey b.name := by
  rw [same_iff, orderKey, orderKey, toLex_inj, Prod.mk.injEq]

theorem isBefore_iff (a b : Descriptor) : a.isBefore b = true ↔ a.orderKey < b.orderKey := by
  simp only [isBefore, beq_iff_eq, compare_eq_lt_iff]

theorem isAtMost_iff (a b : Descriptor) : a.isAtMost b = true ↔ a.orderKey ≤ b.orderKey := by
  simp only [isAtMost, bne_iff_ne, ne_eq, compare_eq_gt_iff, not_lt]

theorem orderedBy : OrderedBy isAtMost same orderKey :=
  ⟨isAtMost_iff, same_iff⟩

theorem same_refl (a : Descriptor) : a.same a = true :=
  (same_iff a a).mpr rfl

theorem same_comm (a b : Descriptor) : a.same b = b.same a := by
  rw [Bool.eq_iff_iff, same_iff, same_iff]
  exact eq_comm

theorem same_congr_left {a b : Descriptor} (h : a.same b = true) (c : Descriptor) :
    a.same c = b.same c := by
  rw [Bool.eq_iff_iff, same_iff, same_iff, (same_iff a b).mp h]

theorem same_congr_right {a b : Descriptor} (h : a.same b = true) (c : Descriptor) :
    c.same a = c.same b := by
  rw [same_comm c a, same_comm c b, same_congr_left h]

end Descriptor

/-! ## Dependencies -/

namespace Dependency

/-- The place of the kind, and schema and name in lower case. -/
def targetKey (d : Dependency) : ℕ ×ₗ List Char ×ₗ List Char :=
  toLex (d.kind.rank, toLex (Text.caseKey d.schema, Text.caseKey d.name))

theorem compareTarget_eq_lt_iff (a b : Dependency) :
    a.compareTarget b = .lt ↔ a.targetKey < b.targetKey := by
  simp only [compareTarget, Ordering.then_eq_lt, Ordering.then_eq_eq, compareNames_eq_lt_iff,
    compareNames_eq_eq_iff, Nat.compare_eq_lt, Nat.compare_eq_eq, targetKey,
    Prod.Lex.toLex_lt_toLex]
  tauto

theorem sameTarget_iff (a b : Dependency) : a.sameTarget b = true ↔ a.targetKey = b.targetKey := by
  simp only [sameTarget, compareTarget, beq_iff_eq, Ordering.then_eq_eq, compareNames_eq_eq_iff,
    Nat.compare_eq_eq, targetKey, toLex_inj, Prod.mk.injEq]
  tauto

theorem isAtMost_iff (a b : Dependency) : a.isAtMost b = true ↔ a.targetKey ≤ b.targetKey := by
  have hsame := sameTarget_iff a b
  simp only [sameTarget, beq_iff_eq] at hsame
  simp only [isAtMost, bne_iff_ne, ne_eq, le_iff_lt_or_eq, ← compareTarget_eq_lt_iff, ← hsame]
  cases a.compareTarget b <;> simp

theorem orderedBy : OrderedBy isAtMost sameTarget targetKey :=
  ⟨isAtMost_iff, sameTarget_iff⟩

theorem pairwise_canonical (ds : List Dependency) :
    (canonical ds).Pairwise fun a b => a.targetKey < b.targetKey :=
  pairwise_sortedDistinctBy orderedBy ds

@[simp] theorem canonical_canonical (ds : List Dependency) :
    canonical (canonical ds) = canonical ds :=
  sortedDistinctBy_eq_self orderedBy (pairwise_canonical ds)

theorem mem_of_mem_canonical {d : Dependency} {ds : List Dependency} (h : d ∈ canonical ds) :
    d ∈ ds :=
  mem_of_mem_sortedDistinctBy h

end Dependency

end SqlSnapshot
