import Mathlib.Tactic.Linarith
import SqlSnapshot.Json.Printer
import SqlSnapshot.Json.Reader
import SqlSnapshot.Proofs.Text.Digits

/-!
# Strings and numbers read back

The reader takes a written string or number off the front of a text and leaves the rest.  A string
may hold any characters.  A number has fewer than 64 bits, so that it is far from the range in
which numbers have no value, and what follows it must not go on like a number.
-/

namespace SqlSnapshot.Json

/-! ## Strings -/

theorem hexValue?_hexDigit {n : Nat} (h : n < 16) : hexValue? (hexDigit n) = some n := by
  have hall : ∀ m < 16, hexValue? (hexDigit m) = some m := by decide
  exact hall n h

theorem hex4?_low {n : Nat} (h : n < 0x20) :
    hex4? '0' '0' (hexDigit (n / 16)) (hexDigit (n % 16)) = some n := by
  have hzero : hexValue? '0' = some 0 := by decide
  have hhigh := hexValue?_hexDigit (show n / 16 < 16 by omega)
  have hlow := hexValue?_hexDigit (show n % 16 < 16 by omega)
  simp only [hex4?, hzero, hhigh, hlow, Option.bind_eq_bind, Option.bind_some, Option.pure_def,
    Option.some.injEq]
  omega

theorem readUnits_shortEscape {c : Char} {unit : Nat} (hc : c ≠ 'u')
    (h : shortEscape? c = some unit) (cs : List Char) :
    readUnits ('\\' :: c :: cs) = (readUnits cs).map fun r => (unit :: r.1, r.2) := by
  rw [readUnits, h]
  · cases readUnits cs <;> rfl
  · exact fun _ _ _ _ _ hu _ => hc hu

theorem readUnits_plain {c : Char} (hquote : c ≠ '\x22') (hslash : c ≠ '\\')
    (hlow : ¬ c.toNat < 0x20) (cs : List Char) :
    readUnits (c :: cs) = (readUnits cs).map fun r => (c.toNat :: r.1, r.2) := by
  rw [readUnits]
  · simp only [hlow, decide_false, beq_eq_false_iff_ne.mpr hslash, Bool.or_false,
      Bool.false_eq_true, if_false]
    cases readUnits cs <;> rfl
  · exact hquote
  · exact fun _ _ _ _ _ h _ => hslash h
  · exact fun _ _ h _ => hslash h

theorem readUnits_escapeChar (c : Char) (cs : List Char) :
    readUnits (escapeChar c ++ cs) = (readUnits cs).map fun r => (c.toNat :: r.1, r.2) := by
  unfold escapeChar
  split
  · exact readUnits_shortEscape (by decide) rfl cs
  · exact readUnits_shortEscape (by decide) rfl cs
  · exact readUnits_shortEscape (by decide) rfl cs
  · exact readUnits_shortEscape (by decide) rfl cs
  · exact readUnits_shortEscape (by decide) rfl cs
  · exact readUnits_shortEscape (by decide) rfl cs
  · exact readUnits_shortEscape (by decide) rfl cs
  · rename_i hquote hslash _ _ _ _ _
    split
    · rename_i hlow
      simp only [List.cons_append, List.nil_append, readUnits, hex4?_low hlow]
      cases readUnits cs <;> rfl
    · rename_i hlow
      exact readUnits_plain hquote hslash hlow cs

theorem readUnits_quoted (cs rest : List Char) :
    readUnits (cs.flatMap escapeChar ++ '\x22' :: rest) = some (cs.map Char.toNat, rest) := by
  induction cs with
  | nil => rfl
  | cons c cs ih =>
    rw [List.flatMap_cons, List.append_assoc, readUnits_escapeChar, ih]
    rfl

theorem isHighHalf_toNat (c : Char) : isHighHalf c.toNat = false := by
  have hvalid := c.valid
  simp only [isHighHalf, Bool.and_eq_false_iff, decide_eq_false_iff_not]
  simp only [UInt32.isValidChar, Nat.isValidChar] at hvalid
  change ¬ 0xD800 ≤ c.val.toNat ∨ ¬ c.val.toNat < 0xDC00
  omega

theorem isLowHalf_toNat (c : Char) : isLowHalf c.toNat = false := by
  have hvalid := c.valid
  simp only [isLowHalf, Bool.and_eq_false_iff, decide_eq_false_iff_not]
  simp only [UInt32.isValidChar, Nat.isValidChar] at hvalid
  change ¬ 0xDC00 ≤ c.val.toNat ∨ ¬ c.val.toNat < 0xE000
  omega

theorem joinHalves?_toNat (cs : List Char) : joinHalves? (cs.map Char.toNat) = some cs := by
  induction cs with
  | nil => rfl
  | cons c cs ih =>
    cases cs with
    | nil => simp [joinHalves?, isHighHalf_toNat, isLowHalf_toNat]
    | cons d ds =>
      simp only [List.map_cons] at ih ⊢
      rw [joinHalves?, ih]
      simp [isHighHalf_toNat, isLowHalf_toNat]

/-! ## Numbers -/

theorem isNumberDigit_of_mem_toDigits {n : Nat} {c : Char} (h : c ∈ Nat.toDigits 10 n) :
    isNumberDigit c = true :=
  Text.isDigit_of_mem_toDigits h

theorem natOfDigits_toDigits (n : Nat) : natOfDigits (Nat.toDigits 10 n) = n := by
  rw [natOfDigits, Text.foldl_digits_eq, Nat.ofDigitChars_ten_toDigits]

theorem head?_toDigits_eq_zero {n : Nat} (h : (Nat.toDigits 10 n).head? = some '0') :
    (Nat.toDigits 10 n).length = 1 := by
  induction n using Nat.strongRecOn with
  | _ n ih =>
    by_cases hlt : n < 10
    · rw [Nat.toDigits_of_lt_base hlt]
      rfl
    · rw [Nat.toDigits_of_base_le (by decide) (by omega), List.head?_append,
        List.head?_eq_some_head Nat.toDigits_ne_nil, Option.some_or,
        ← List.head?_eq_some_head Nat.toDigits_ne_nil] at h
      have hlength := ih (n / 10) (by omega) h
      have hsmall : n / 10 < 10 ^ 1 :=
        (Nat.length_toDigits_le_iff (by decide) (by decide)).mp (by omega)
      rw [Nat.toDigits_of_lt_base (show n / 10 < 10 by omega)] at h
      have hne : ∀ m < 10, 0 < m → [Nat.digitChar m].head? ≠ some '0' := by decide
      exact absurd h (hne (n / 10) (by omega) (by omega))

/-- What may follow a number: it does not go on like one. -/
def EndsNumber (rest : List Char) : Prop :=
  ∀ c cs, rest = c :: cs → isNumberDigit c = false ∧ c ≠ '.' ∧ c ≠ 'e' ∧ c ≠ 'E'

theorem takeWhile_digits_append {ds rest : List Char} (hds : ∀ c ∈ ds, isNumberDigit c = true)
    (hrest : EndsNumber rest) : (ds ++ rest).takeWhile isNumberDigit = ds := by
  rw [List.takeWhile_append_of_pos hds]
  cases rest with
  | nil => simp
  | cons c cs => simp [(hrest c cs rfl).1]

theorem dropWhile_digits_append {ds rest : List Char} (hds : ∀ c ∈ ds, isNumberDigit c = true)
    (hrest : EndsNumber rest) : (ds ++ rest).dropWhile isNumberDigit = rest := by
  rw [List.dropWhile_append_of_pos hds]
  cases rest with
  | nil => rfl
  | cons c cs => simp [(hrest c cs rfl).1]

theorem readFraction_of_endsNumber {rest : List Char} (h : EndsNumber rest) :
    readFraction rest = some (none, rest) := by
  cases rest with
  | nil => rfl
  | cons c cs =>
    have hdot := (h c cs rfl).2.1
    unfold readFraction
    split
    · simp_all
    · rfl

theorem readExponent_of_endsNumber {rest : List Char} (h : EndsNumber rest) :
    readExponent rest = some (none, rest) := by
  cases rest with
  | nil => rfl
  | cons c cs =>
    obtain ⟨-, -, hsmall, hbig⟩ := h c cs rfl
    simp [readExponent, hsmall, hbig]

theorem readNumberParts_toDigits (n : Nat) {rest : List Char} (h : EndsNumber rest) :
    readNumberParts (Nat.toDigits 10 n ++ rest) = some (Nat.toDigits 10 n, none, none, rest) := by
  have hdigits : ∀ c ∈ Nat.toDigits 10 n, isNumberDigit c = true :=
    fun c hc => isNumberDigit_of_mem_toDigits hc
  have hstart : ((Nat.toDigits 10 n).isEmpty || ((Nat.toDigits 10 n).head? == some '0' &&
      (Nat.toDigits 10 n).length != 1)) = false := by
    simp only [Bool.or_eq_false_iff, List.isEmpty_eq_false_iff, Bool.and_eq_false_iff,
      bne_eq_false_iff_eq]
    refine ⟨Nat.toDigits_ne_nil, ?_⟩
    by_cases hzero : (Nat.toDigits 10 n).head? = some '0'
    · exact Or.inr (head?_toDigits_eq_zero hzero)
    · exact Or.inl (by simpa using hzero)
  simp only [readNumberParts, takeWhile_digits_append hdigits h, hstart,
    dropWhile_digits_append hdigits h, readFraction_of_endsNumber h]
  simp [readExponent_of_endsNumber h]

/-! The digits of a number below 2⁶⁴ all count, and the number is far from infinity. -/

theorem fitDigits_digits {ds : List Char} {n : Nat}
    (h : ds.foldl (fun n d => n * 10 + (d.toNat - 48)) n < UInt64.size) :
    fitDigits n ds = (ds.foldl (fun n d => n * 10 + (d.toNat - 48)) n, []) := by
  induction ds generalizing n with
  | nil => rfl
  | cons d ds ih =>
    have hgrows : ∀ (es : List Char) (m : Nat),
        m ≤ es.foldl (fun n d => n * 10 + (d.toNat - 48)) m := by
      intro es
      induction es with
      | nil => exact fun m => le_refl m
      | cons e es ihe =>
        intro m
        have hnext := ihe (m * 10 + (e.toNat - 48))
        rw [List.foldl_cons]
        omega
    rw [List.foldl_cons] at h ⊢
    have hnext : n * 10 + (d.toNat - 48) < UInt64.size := lt_of_le_of_lt (hgrows ds _) h
    rw [fitDigits]
    simp only [hnext, if_true]
    exact ih h

theorem nearestDouble_le (n : Nat) : nearestDouble n ≤ n + 2 ^ (Nat.log2 n - 52) := by
  have hdiv := Nat.div_mul_le_self n (2 ^ (Nat.log2 n - 52))
  simp only [nearestDouble, Nat.one_shiftLeft]
  generalize 2 ^ (Nat.log2 n - 52) = unit at hdiv ⊢
  split
  · rw [Nat.add_mul, Nat.one_mul]
    omega
  · omega

theorem nearestDouble_le_of_lt {n : Nat} (h : n < UInt64.size) : nearestDouble n ≤ 2 ^ 65 := by
  have hlog : Nat.log2 n < 64 := by
    rcases Nat.eq_zero_or_pos n with rfl | hpos
    · decide
    · exact (Nat.log2_lt hpos.ne').mpr h
  have hunit : 2 ^ (Nat.log2 n - 52) ≤ 2 ^ 12 := Nat.pow_le_pow_right (by decide) (by omega)
  have hnear := nearestDouble_le n
  simp only [UInt64.size] at h
  omega

theorem not_overflows_of_lt {n : Nat} (h : n < UInt64.size) : overflows n 0 = false := by
  have hnear := nearestDouble_le_of_lt h
  have hone : nearestDouble (Nat.pow 10 0) = 1 := by decide
  have hbound : 2 ^ 65 < overflowBound := by decide +kernel
  have hpower : ¬ largestPower < 0 := by decide
  unfold overflows
  split
  · rfl
  · change (decide (largestPower < 0) ||
      decide (overflowBound ≤ nearestDouble n * nearestDouble (Nat.pow 10 0))) = false
    rw [hone, Nat.mul_one]
    simp only [hpower, decide_false, Bool.false_or, decide_eq_false_iff_not, not_le]
    exact lt_of_le_of_lt hnear hbound

theorem numberValue_toDigits {n : Nat} (h : n < UInt64.size) (negative : Bool) :
    numberValue negative (Nat.toDigits 10 n) none none =
      if negative then if n = 0 then .decimal else .int (-n) else .int n := by
  have hvalue := natOfDigits_toDigits n
  have hfits : fitDigits 0 (Nat.toDigits 10 n) = (n, []) := by
    rw [natOfDigits] at hvalue
    rw [fitDigits_digits (by rw [hvalue]; exact h), hvalue]
  simp only [numberValue, hfits, Option.getD_none, fitDigits, List.length_nil, Nat.cast_zero,
    add_zero, sub_zero, not_overflows_of_lt h, Bool.false_eq_true, if_false, Option.isSome_none,
    Bool.or_self, hvalue]

/-- Reading takes `a` off the front of `cs` and leaves `rest`. -/
def Takes {α : Type} (read : (cs : List Char) → Option (α × Shorter cs)) (cs : List Char) (a : α)
    (rest : List Char) : Prop :=
  ∃ h, read cs = some (a, ⟨rest, h⟩)

theorem readString_quoted (s : String) (rest : List Char) :
    Takes readString (s.toList.flatMap escapeChar ++ '\x22' :: rest) (some s) rest := by
  have hunits := readUnits_quoted s.toList rest
  refine ⟨length_readUnits hunits, ?_⟩
  unfold readString
  split
  · simp_all
  · rename_i units rest' heq
    rw [hunits] at heq
    cases heq
    simp [joinHalves?_toNat]

theorem Takes.unique {α : Type} {read : (cs : List Char) → Option (α × Shorter cs)}
    {cs rest rest' : List Char} {a a' : α} (h : Takes read cs a rest)
    (h' : Takes read cs a' rest') : a = a' ∧ rest = rest' := by
  obtain ⟨_, heq⟩ := h
  obtain ⟨_, heq'⟩ := h'
  simpa using heq.symm.trans heq'

/-- Where a written string ends is seen from the text, whatever follows. -/
theorem quote_append_inj {s t : String} {rest rest' : List Char}
    (h : quote s ++ rest = quote t ++ rest') : s = t ∧ rest = rest' := by
  simp only [quote, List.cons_append, List.append_assoc, List.nil_append, List.cons.injEq,
    true_and] at h
  have hs := readString_quoted s rest
  rw [h] at hs
  obtain ⟨hst, hrest⟩ := hs.unique (readString_quoted t rest')
  exact ⟨Option.some.inj hst, hrest⟩

theorem readNumber_toDigits {n : Nat} (h : n < UInt64.size) {rest : List Char}
    (hrest : EndsNumber rest) : Takes readNumber (Nat.toDigits 10 n ++ rest) (.int n) rest := by
  have hlength := Nat.length_toDigits_pos (b := 10) (n := n)
  have hstart : ∀ r, Nat.toDigits 10 n ++ rest ≠ '-' :: r := by
    intro r heq
    obtain ⟨d, ds, hds⟩ := List.exists_cons_of_length_pos hlength
    rw [hds, List.cons_append, List.cons.injEq] at heq
    have hdigit := isNumberDigit_of_mem_toDigits (hds ▸ List.mem_cons_self : d ∈ Nat.toDigits 10 n)
    rw [heq.1] at hdigit
    exact absurd hdigit (by decide)
  have hshort : rest.length < (Nat.toDigits 10 n ++ rest).length := by
    rw [List.length_append]
    omega
  refine ⟨hshort, ?_⟩
  unfold readNumber
  split
  rename_i negative body heq
  have hbody : (false, Nat.toDigits 10 n ++ rest) = (negative, body) := by
    rw [← heq]
    split
    · rename_i r hminus
      exact absurd hminus (hstart r)
    · rfl
  cases hbody
  simp only [readNumberParts_toDigits n hrest, hshort, dite_true, numberValue_toDigits h,
    Bool.false_eq_true, if_false]

theorem readNumber_negative {n : Nat} (hpos : 0 < n) (h : n < UInt64.size) {rest : List Char}
    (hrest : EndsNumber rest) :
    Takes readNumber ('-' :: Nat.toDigits 10 n ++ rest) (.int (-n)) rest := by
  have hshort : rest.length < ('-' :: Nat.toDigits 10 n ++ rest).length := by
    rw [List.cons_append, List.length_cons, List.length_append]
    omega
  refine ⟨hshort, ?_⟩
  unfold readNumber
  simp only [List.cons_append] at hshort ⊢
  simp only [readNumberParts_toDigits n hrest, hshort, dite_true, numberValue_toDigits h, if_true,
    hpos.ne', if_false]

theorem takes_readNumber {n : Int} (h : n.natAbs < UInt64.size) {rest : List Char}
    (hrest : EndsNumber rest) : Takes readNumber ((toString n).toList ++ rest) (.int n) rest := by
  rw [Int.toString_eq_repr, Int.repr_eq_if]
  split
  · rename_i hnonneg
    have hread := readNumber_toDigits (n := n.toNat) (by omega) hrest
    rw [Int.toNat_of_nonneg hnonneg] at hread
    rwa [Nat.toList_repr]
  · rename_i hneg
    have hread := readNumber_negative (n := (-n).toNat) (by omega) (by omega) hrest
    rw [Int.toNat_of_nonneg (by omega), neg_neg] at hread
    rwa [String.toList_append, Nat.toList_repr]

end SqlSnapshot.Json
