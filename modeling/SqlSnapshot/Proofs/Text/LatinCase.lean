import SqlSnapshot.Text.Case

/-!
# The case of Latin letters

Two texts are alike if they differ only in the case of the twenty-six Latin letters, that is, if
`asciiLower` maps them to the same text.  What reads texts without regard to case cannot tell alike
texts apart: not the comparison of names, not the lower case of all scripts, and not the rule for a
sigma at the end of a word.
-/

namespace SqlSnapshot.Text

/-! ## Characters -/

def isLatinCapital (c : Char) : Prop :=
  0x41 ≤ c.toNat ∧ c.toNat ≤ 0x5A

instance (c : Char) : Decidable (isLatinCapital c) :=
  inferInstanceAs (Decidable (_ ∧ _))

theorem isLatinCapital_iff (c : Char) : isLatinCapital c ↔ 'A'.val ≤ c.val ∧ c.val ≤ 'Z'.val := by
  rw [UInt32.le_iff_toNat_le, UInt32.le_iff_toNat_le]
  exact Iff.rfl

theorem toLower_of_capital {c : Char} (h : isLatinCapital c) :
    c.toLower.toNat = c.toNat + 32 := by
  have hval : c.toLower.val = c.val + 32 :=
    congrArg Char.val (dif_pos ((isLatinCapital_iff c).mp h))
  have hbound : c.val.toNat ≤ 0x5A := h.2
  show c.toLower.val.toNat = c.val.toNat + 32
  rw [hval, UInt32.toNat_add]
  exact Nat.mod_eq_of_lt (by simp only [UInt32.reduceToNat]; omega)

theorem toLower_of_not_capital {c : Char} (h : ¬ isLatinCapital c) : c.toLower = c :=
  dif_neg fun hc => h ((isLatinCapital_iff c).mpr hc)

theorem not_isLatinCapital_toLower (c : Char) : ¬ isLatinCapital c.toLower := by
  by_cases h : isLatinCapital c
  · have := h.1
    rw [isLatinCapital, toLower_of_capital h]
    omega
  · rwa [toLower_of_not_capital h]

@[simp]
theorem toLower_toLower (c : Char) : c.toLower.toLower = c.toLower :=
  toLower_of_not_capital (not_isLatinCapital_toLower c)

@[simp]
theorem toUpper_toLower (c : Char) : c.toLower.toUpper = c.toUpper := by
  by_cases h : isLatinCapital c
  · have hbounds := h
    have hlower := toLower_of_capital h
    unfold isLatinCapital at hbounds
    apply Char.ext
    apply UInt32.toNat.inj
    have h1 : 'a'.val ≤ c.toLower.val ∧ c.toLower.val ≤ 'z'.val := by
      rw [UInt32.le_iff_toNat_le, UInt32.le_iff_toNat_le]
      show 0x61 ≤ c.toLower.toNat ∧ c.toLower.toNat ≤ 0x7A
      omega
    have h2 : ¬ ('a'.val ≤ c.val ∧ c.val ≤ 'z'.val) := by
      rw [UInt32.le_iff_toNat_le, UInt32.le_iff_toNat_le]
      show ¬ (0x61 ≤ c.toNat ∧ c.toNat ≤ 0x7A)
      omega
    unfold Char.toUpper
    rw [dif_pos h1, dif_neg h2]
    show (c.toLower.val + ('A'.val - 'a'.val)).toNat = c.toNat
    rw [UInt32.toNat_add]
    show (c.toLower.toNat + 4294967264) % 4294967296 = c.toNat
    omega
  · rw [toLower_of_not_capital h]

/-- A character that is no Latin letter is its own lower case only. -/
theorem toLower_eq_iff {c d : Char} (hcapital : ¬ isLatinCapital d) (hsmall : ¬ (0x61 ≤ d.toNat ∧
    d.toNat ≤ 0x7A)) : c.toLower = d ↔ c = d := by
  by_cases h : isLatinCapital c
  · have hbounds := h
    unfold isLatinCapital at hbounds
    have hlower := toLower_of_capital h
    constructor
    · rintro rfl
      omega
    · rintro rfl
      exact absurd h hcapital
  · rw [toLower_of_not_capital h]

/-! ## Lower case of all scripts -/

theorem shiftBy_lowerRuns {n : Nat} (h : n < 0xC0) :
    shiftBy lowerRuns n = if 0x41 ≤ n ∧ n ≤ 0x5A then n + 32 else n := by
  rw [lowerRuns, shiftBy, shiftBy]
  simp only [Run.covers, Nat.mod_one, beq_self_eq_true, Bool.and_true, Bool.and_eq_true,
    decide_eq_true_eq, if_pos h]
  by_cases hfirst : n < 0x41
  · rw [if_pos hfirst, if_neg (by omega)]
  · rw [if_neg hfirst]
    split
    · omega
    · rfl

@[simp]
theorem lowerChar_toLower (c : Char) : lowerChar c.toLower = lowerChar c := by
  by_cases h : isLatinCapital c
  · have hbounds := h
    unfold isLatinCapital at hbounds
    have hlower := toLower_of_capital h
    have hne : c ≠ '\u0130' := by
      rintro rfl
      exact absurd h (by decide)
    have hne' : c.toLower ≠ '\u0130' := by
      intro hc
      rw [hc] at hlower
      have : '\u0130'.toNat = 0x130 := rfl
      omega
    rw [lowerChar, lowerChar, if_neg hne, if_neg hne', hlower,
      shiftBy_lowerRuns (show c.toNat < 0xC0 by omega),
      shiftBy_lowerRuns (show c.toNat + 32 < 0xC0 by omega), if_neg (by omega), if_pos hbounds]
  · rw [toLower_of_not_capital h]

variable {lo hi n : Nat} {bounds : List Nat}

theorem inRanges_of_lt (h : n < lo) : inRanges (lo :: hi :: bounds) n = false := by
  rw [inRanges, if_pos h]

theorem inRanges_of_mem (hlo : lo ≤ n) (hhi : n < hi) : inRanges (lo :: hi :: bounds) n = true := by
  rw [inRanges_cons_cons hlo, decide_eq_true hhi, Bool.true_or]

theorem inRanges_of_le (hlo : lo ≤ n) (hhi : hi ≤ n) :
    inRanges (lo :: hi :: bounds) n = inRanges bounds n := by
  rw [inRanges_cons_cons hlo, decide_eq_false (by omega), Bool.false_or]

/-- A property with the same value at both cases of each letter does not see the case. -/
theorem inRanges_toLower
    {value : Bool} (hcapital : ∀ n, 0x41 ≤ n → n ≤ 0x5A → inRanges bounds n = value)
    (hsmall : ∀ n, 0x61 ≤ n → n ≤ 0x7A → inRanges bounds n = value) (c : Char) :
    inRanges bounds c.toLower.toNat = inRanges bounds c.toNat := by
  by_cases h : isLatinCapital c
  · have hfirst := h.1
    have hlast := h.2
    rw [toLower_of_capital h, hcapital _ hfirst hlast, hsmall _ (by omega) (by omega)]
  · rw [toLower_of_not_capital h]

@[simp]
theorem inRanges_casedBounds_toLower (c : Char) :
    inRanges casedBounds c.toLower.toNat = inRanges casedBounds c.toNat := by
  apply inRanges_toLower
  · intro n hfirst hlast
    exact inRanges_of_mem hfirst (Nat.lt_succ_of_le hlast)
  · intro n hfirst hlast
    exact (inRanges_of_le (by omega) (by omega)).trans
      (inRanges_of_mem hfirst (Nat.lt_succ_of_le hlast))

theorem inRanges_caseIgnorableBounds (h : 0x3B ≤ n) :
    inRanges caseIgnorableBounds n = inRanges (caseIgnorableBounds.drop 6) n := by
  refine (inRanges_of_le ?_ ?_).trans ((inRanges_of_le ?_ ?_).trans (inRanges_of_le ?_ ?_)) <;>
    omega

@[simp]
theorem inRanges_caseIgnorableBounds_toLower (c : Char) :
    inRanges caseIgnorableBounds c.toLower.toNat = inRanges caseIgnorableBounds c.toNat := by
  apply inRanges_toLower
  · intro n hfirst hlast
    exact (inRanges_caseIgnorableBounds (by omega)).trans (inRanges_of_lt (by omega))
  · intro n hfirst hlast
    refine (inRanges_caseIgnorableBounds (by omega)).trans ?_
    refine (inRanges_of_le ?_ ?_).trans ((inRanges_of_le ?_ ?_).trans (inRanges_of_lt ?_)) <;>
      omega

@[simp]
theorem meetsCased_map_toLower (cs : List Char) :
    meetsCased (cs.map Char.toLower) = meetsCased cs := by
  have hskip : ((fun c : Char => inRanges caseIgnorableBounds c.toNat) ∘ Char.toLower) =
      fun c => inRanges caseIgnorableBounds c.toNat :=
    funext inRanges_caseIgnorableBounds_toLower
  rw [meetsCased, meetsCased, List.dropWhile_map, hskip]
  cases cs.dropWhile fun c => inRanges caseIgnorableBounds c.toNat with
  | nil => rfl
  | cons c cs => exact inRanges_casedBounds_toLower c

theorem lowerFrom_map_toLower (before cs : List Char) :
    lowerFrom (before.map Char.toLower) (cs.map Char.toLower) = lowerFrom before cs := by
  induction cs generalizing before with
  | nil => rfl
  | cons c cs ih =>
    have hsigma : c.toLower = 'Σ' ↔ c = 'Σ' := toLower_eq_iff (by decide) (by decide)
    have hrest := ih (c :: before)
    rw [List.map_cons] at hrest
    simp only [List.map_cons, lowerFrom, hsigma, meetsCased_map_toLower, lowerChar_toLower, hrest]

/-- The image of a code point is the point itself or lies above the capitals, where the images of
all runs do. -/
theorem shiftBy_eq_or
    {runs : List Run} (himages : ∀ r ∈ runs, (0x5A : Int) < r.first + r.shift) (n : Nat) :
    shiftBy runs n = n ∨ 0x5A < shiftBy runs n := by
  induction runs with
  | nil => exact .inl rfl
  | cons r runs ih =>
    have hr := himages r List.mem_cons_self
    rw [shiftBy]
    split
    · exact .inl rfl
    · split
      · right
        omega
      · exact ih fun r' hr' => himages r' (List.mem_cons_of_mem r hr')

theorem lowerRuns_images : ∀ r ∈ lowerRuns, (0x5A : Int) < r.first + r.shift := by
  decide +kernel

theorem toNat_ofNat_cases (n : Nat) : (Char.ofNat n).toNat = n ∨ (Char.ofNat n).toNat = 0 := by
  by_cases hvalid : n.isValidChar
  · have hn : Char.ofNat n = Char.ofNatAux n hvalid := dif_pos hvalid
    exact .inl (congrArg Char.toNat hn)
  · have hzero : Char.ofNat n = Char.ofNat 0 := dif_neg hvalid
    exact .inr (congrArg Char.toNat hzero)

theorem not_isLatinCapital_ofNat {n : Nat} (h : ¬ (0x41 ≤ n ∧ n ≤ 0x5A)) :
    ¬ isLatinCapital (Char.ofNat n) := by
  unfold isLatinCapital
  rcases toNat_ofNat_cases n with hn | hzero <;> omega

theorem not_isLatinCapital_of_mem_lowerChar {c d : Char} (h : d ∈ lowerChar c) :
    ¬ isLatinCapital d := by
  unfold lowerChar at h
  split at h
  · simp only [List.mem_cons, List.not_mem_nil, or_false] at h
    rcases h with rfl | rfl <;> decide
  · simp only [List.mem_singleton] at h
    subst h
    apply not_isLatinCapital_ofNat
    by_cases hlow : c.toNat < 0xC0
    · rw [shiftBy_lowerRuns hlow]
      split <;> omega
    · rcases shiftBy_eq_or lowerRuns_images c.toNat with heq | hgt
      · rw [heq]
        omega
      · omega

theorem not_isLatinCapital_of_mem_lowerFrom
    {before cs : List Char} {d : Char} (h : d ∈ lowerFrom before cs) :
    ¬ isLatinCapital d := by
  induction cs generalizing before with
  | nil => cases h
  | cons c cs ih =>
    rw [lowerFrom] at h
    rcases List.mem_append.mp h with h | h
    · split at h
      · split at h <;> simp only [List.mem_singleton] at h <;> subst h <;> decide
      · exact not_isLatinCapital_of_mem_lowerChar h
    · exact ih h

/-! ## Texts -/

@[simp]
theorem toList_asciiLower (s : String) : (asciiLower s).toList = s.toList.map Char.toLower := by
  rw [asciiLower, String.toList_ofList]

/-- Whether a text starts with a character that is no Latin letter does not depend on the case. -/
theorem head?_asciiLower
    {c : Char} (hcapital : ¬ isLatinCapital c) (hsmall : ¬ (0x61 ≤ c.toNat ∧ c.toNat ≤ 0x7A))
    (s : String) :
    ((asciiLower s).toList.head? == some c) = (s.toList.head? == some c) := by
  rw [toList_asciiLower]
  cases s.toList with
  | nil => rfl
  | cons d ds =>
    rw [Bool.eq_iff_iff]
    simpa using toLower_eq_iff hcapital hsmall

@[simp]
theorem asciiLower_asciiLower (s : String) : asciiLower (asciiLower s) = asciiLower s := by
  apply String.toList_injective
  simp

@[simp]
theorem asciiUpper_asciiLower (s : String) : asciiUpper (asciiLower s) = asciiUpper s := by
  simp [asciiUpper, Function.comp_def]

@[simp]
theorem sameAscii_asciiLower (a b : String) :
    sameAscii (asciiLower a) (asciiLower b) = sameAscii a b := by
  simp [sameAscii, Function.comp_def]

@[simp]
theorem caseKey_asciiLower (s : String) : caseKey (asciiLower s) = caseKey s := by
  simp [caseKey, List.flatMap_map]

@[simp]
theorem lower_asciiLower (s : String) : lower (asciiLower s) = lower s := by
  have h := lowerFrom_map_toLower [] s.toList
  rw [List.map_nil] at h
  rw [lower, lower, toList_asciiLower, h]

@[simp]
theorem asciiLower_lower (s : String) : asciiLower (lower s) = lower s := by
  apply String.toList_injective
  rw [toList_asciiLower, lower, String.toList_ofList]
  have h : ∀ c ∈ lowerFrom [] s.toList, c.toLower = id c := fun c hc =>
    toLower_of_not_capital (not_isLatinCapital_of_mem_lowerFrom hc)
  exact (List.map_congr_left h).trans (List.map_id _)

theorem asciiLower_append (a b : String) : asciiLower (a ++ b) = asciiLower a ++ asciiLower b := by
  apply String.toList_injective
  simp

theorem asciiLower_join (parts : List String) :
    asciiLower (String.join parts) = String.join (parts.map asciiLower) := by
  apply String.toList_injective
  simp [String.toList_join, List.flatMap_map, List.map_flatMap]

theorem asciiLower_intercalate (separator : String) (parts : List String) :
    asciiLower (separator.intercalate parts) =
      (asciiLower separator).intercalate (parts.map asciiLower) := by
  induction parts with
  | nil => rfl
  | cons a parts ih =>
    cases parts with
    | nil => simp
    | cons b parts =>
      rw [List.map_cons] at ih
      simp only [List.map_cons, String.intercalate_cons_cons, asciiLower_append, ih]

end SqlSnapshot.Text
