import Mathlib.Algebra.Group.Nat.Defs
import SqlSnapshot.Text.Blank
import SqlSnapshot.Text.Numeral

/-!
# Decimal digits

The digits of a number are digits, and reading them from left to right gives back the number.
-/

namespace SqlSnapshot.Text

theorem isDigit_of_mem_toDigits {n : Nat} {c : Char} (h : c ∈ Nat.toDigits 10 n) :
    isDigit c = true := by
  have hdigit := Nat.isDigit_of_mem_toDigits (by decide) (by decide) h
  simp only [Char.isDigit, Bool.and_eq_true, decide_eq_true_eq] at hdigit
  simp only [isDigit, Bool.and_eq_true, decide_eq_true_eq]
  exact hdigit

theorem eq_or_isDigit_of_mem_toString {n : Int} {c : Char} (h : c ∈ (toString n).toList) :
    c = '-' ∨ isDigit c = true := by
  rw [Int.toString_eq_repr, Int.repr_eq_if] at h
  split at h
  · rw [Nat.toList_repr] at h
    exact .inr (isDigit_of_mem_toDigits h)
  · rw [String.toList_append, List.mem_append, Nat.toList_repr] at h
    rcases h with hsign | hdigit
    · exact .inl (List.mem_singleton.mp hsign)
    · exact .inr (isDigit_of_mem_toDigits hdigit)

theorem isBlank_of_isDigit {c : Char} (h : isDigit c = true) : isBlank c = false := by
  simp only [isDigit, Bool.and_eq_true, decide_eq_true_eq, Char.le_def, UInt32.le_iff_toNat_le] at h
  have hcodes : ∀ n < 58, 48 ≤ n → inRanges blankBounds n = false := by decide
  exact hcodes c.toNat (Nat.lt_succ_of_le h.2) h.1

/-- The value of digits as readers compute it. -/
theorem foldl_digits_eq (ds : List Char) (n : Nat) :
    ds.foldl (fun n d => n * 10 + (d.toNat - 48)) n = Nat.ofDigitChars 10 ds n := by
  simp only [Nat.ofDigitChars_eq_foldl, Nat.mul_comm 10]
  rfl

theorem ofDigitChars_lt {ds : List Char} (h : ∀ c ∈ ds, isDigit c = true) :
    Nat.ofDigitChars 10 ds 0 < 10 ^ ds.length := by
  induction ds with
  | nil => simp
  | cons d ds ih =>
    have hrest := ih fun c hc => h c (List.mem_cons_of_mem _ hc)
    have hdigit := h d List.mem_cons_self
    simp only [isDigit, Bool.and_eq_true, decide_eq_true_eq, Char.le_def,
      UInt32.le_iff_toNat_le] at hdigit
    have hvalue : d.toNat - 48 ≤ 9 := Nat.sub_le_of_le_add hdigit.2
    rw [Nat.ofDigitChars_cons, Nat.ofDigitChars_eq_ofDigitChars_zero, List.length_cons,
      Nat.pow_succ]
    have hscaled : 10 ^ ds.length * (d.toNat - 48) ≤ 10 ^ ds.length * 9 :=
      Nat.mul_le_mul_left _ hvalue
    simp only [Nat.mul_zero, Nat.zero_add]
    change 10 ^ ds.length * (d.toNat - 48) + _ < _
    omega

end SqlSnapshot.Text
