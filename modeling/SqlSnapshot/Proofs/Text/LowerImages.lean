import Mathlib.Data.List.Basic
import SqlSnapshot.Proofs.Text.LatinCase

/-!
# Texts in lower case

What stands in lower case stays as it is in lower case: no image of the mapping is mapped further.
A text in which no capital is other than Latin is therefore one that its lower case spells up to the
case of Latin letters (`isLatinCased_iff_sameAscii_lower`), and no lower case spells any other text
so.
-/

namespace SqlSnapshot.Text

/-- The characters that a lower case has without being the image of one in the runs. -/
theorem lowerChar_of_mem_extra :
    ∀ c ∈ [Char.ofNat 0, 'i', '\u0307', 'σ', 'ς'], lowerChar c = [c] := by
  have hall : [Char.ofNat 0, 'i', '\u0307', 'σ', 'ς'].all (fun c => lowerChar c == [c]) = true := by
    decide +kernel
  intro c hc
  exact beq_iff_eq.mp (List.all_eq_true.mp hall c hc)

theorem lowerChar_capitalSigma : lowerChar 'Σ' = ['σ'] := by
  decide +kernel

/-! ## Images of runs -/

/-- No code point between `first` and `last` is covered by `r`, where those of the same parity as
`first` count alone if `step` is two. -/
def Run.misses (first last step : Nat) (r : Run) : Bool :=
  Nat.blt last r.first || Nat.blt r.last first ||
    (r.step == 2 && (first + r.first) % 2 == 1 && (step == 2 || first == last))

/-- No image of a code point that `r` covers is covered by one of the runs. -/
def Run.mapsOutside (runs : List Run) (r : Run) : Bool :=
  let first := ((r.first : Int) + r.shift).toNat
  let last := ((r.last : Int) + r.shift).toNat
  runs.all (Run.misses first last r.step)

/-- The code point of `İ`, which is the only one with two characters for its lower case. -/
def dottedRun : Run := ⟨0x130, 0x130, 1, 0⟩

theorem lowerRuns_mapsOutside :
    lowerRuns.all (Run.mapsOutside (dottedRun :: lowerRuns)) = true := by
  decide +kernel

theorem Run.covers_iff
    {r : Run} {n : Nat} :
    r.covers n = true ↔ r.first ≤ n ∧ n ≤ r.last ∧ (n - r.first) % r.step = 0 := by
  simp only [covers, Bool.and_eq_true, decide_eq_true_eq, beq_iff_eq, and_assoc]

theorem Run.not_covers_of_misses
    {first last step n : Nat} {r : Run} (h : r.misses first last step = true) (hfirst : first ≤ n)
    (hlast : n ≤ last) (hparity : step = 2 → n % 2 = first % 2) :
    r.covers n = false := by
  rw [Bool.eq_false_iff, ne_eq, covers_iff]
  rintro ⟨hstart, hend, hstep⟩
  simp only [misses, Bool.or_eq_true, Nat.blt_eq, Bool.and_eq_true, beq_iff_eq] at h
  rcases h with (habove | hbelow) | ⟨⟨htwo, hodd⟩, hsame⟩
  · omega
  · omega
  · have hn : n % 2 = first % 2 := by
      rcases hsame with hstep' | hone
      · exact hparity hstep'
      · rw [show n = first by omega]
    rw [htwo] at hstep
    omega

theorem Run.not_covers_image
    {runs : List Run} {r s : Run} {n : Nat} (h : r.mapsOutside runs = true) (hs : s ∈ runs)
    (hpositive : 0 < (r.first : Int) + r.shift) (hn : r.covers n = true) :
    s.covers ((n : Int) + r.shift).toNat = false := by
  obtain ⟨hfirst, hlast, hstep⟩ := covers_iff.mp hn
  apply not_covers_of_misses (List.all_eq_true.mp h s hs)
  · omega
  · omega
  · intro htwo
    rw [htwo] at hstep
    omega

theorem shiftBy_of_not_covers
    {runs : List Run} {n : Nat} (h : ∀ r ∈ runs, r.covers n = false) :
    shiftBy runs n = n := by
  induction runs with
  | nil => rfl
  | cons r runs ih =>
    rw [shiftBy, h r List.mem_cons_self, ih fun s hs => h s (List.mem_cons_of_mem r hs)]
    simp

theorem shiftBy_cases (runs : List Run) (n : Nat) :
    shiftBy runs n = n ∨
      ∃ r ∈ runs, r.covers n = true ∧ shiftBy runs n = ((n : Int) + r.shift).toNat := by
  induction runs with
  | nil => exact .inl rfl
  | cons r runs ih =>
    rw [shiftBy]
    split
    · exact .inl rfl
    · split
      · rename_i hcovers
        exact .inr ⟨r, List.mem_cons_self, hcovers, rfl⟩
      · rcases ih with hself | ⟨s, hs, hcovers, himage⟩
        · exact .inl hself
        · exact .inr ⟨s, List.mem_cons_of_mem r hs, hcovers, himage⟩

/-- The image of a code point that is mapped at all is covered by none of the runs. -/
theorem not_covers_shiftBy_lowerRuns
    {n : Nat} (hn : shiftBy lowerRuns n ≠ n) {s : Run} (hs : s ∈ dottedRun :: lowerRuns) :
    s.covers (shiftBy lowerRuns n) = false := by
  rcases shiftBy_cases lowerRuns n with hself | ⟨r, hr, hcovers, himage⟩
  · exact absurd hself hn
  · rw [himage]
    have hpositive := lowerRuns_images r hr
    exact Run.not_covers_image (List.all_eq_true.mp lowerRuns_mapsOutside r hr) hs (by omega)
      hcovers

theorem shiftBy_lowerRuns_shiftBy (n : Nat) :
    shiftBy lowerRuns (shiftBy lowerRuns n) = shiftBy lowerRuns n := by
  by_cases hn : shiftBy lowerRuns n = n
  · rw [hn, hn]
  · exact shiftBy_of_not_covers fun r hr =>
      not_covers_shiftBy_lowerRuns hn (List.mem_cons_of_mem _ hr)

/-! ## Characters -/

theorem lowerChar_ofNat_of_fixed
    {n : Nat} (hfixed : shiftBy lowerRuns n = n) (hdotted : n ≠ 0x130) :
    lowerChar (Char.ofNat n) = [Char.ofNat n] := by
  rcases toNat_ofNat_cases n with hn | hzero
  · have hne : Char.ofNat n ≠ '\u0130' := by
      intro heq
      rw [heq] at hn
      exact hdotted hn.symm
    rw [lowerChar, if_neg hne, hn, hfixed]
  · rw [show Char.ofNat n = Char.ofNat 0 from Char.ext (UInt32.toNat.inj hzero)]
    exact lowerChar_of_mem_extra _ (by simp only [List.mem_cons, true_or])

/-- A character in lower case is its own lower case. -/
theorem lowerChar_of_mem_lowerChar
    {c d : Char} (h : d ∈ lowerChar c) :
    lowerChar d = [d] := by
  unfold lowerChar at h
  split at h
  · simp only [List.mem_cons, List.not_mem_nil, or_false] at h
    rcases h with rfl | rfl
    · exact lowerChar_of_mem_extra _ (by simp only [List.mem_cons, true_or, or_true])
    · exact lowerChar_of_mem_extra _ (by simp only [List.mem_cons, true_or, or_true])
  · rename_i hc
    obtain rfl := List.mem_singleton.mp h
    apply lowerChar_ofNat_of_fixed (shiftBy_lowerRuns_shiftBy c.toNat)
    by_cases hself : shiftBy lowerRuns c.toNat = c.toNat
    · rw [hself]
      exact fun hdotted => hc (Char.ext (UInt32.toNat.inj hdotted))
    · intro hdotted
      have hcovers := not_covers_shiftBy_lowerRuns hself (s := dottedRun) List.mem_cons_self
      rw [hdotted] at hcovers
      exact absurd hcovers (by decide)

theorem lowerChar_of_mem_lowerFrom
    {before cs : List Char} {d : Char} (h : d ∈ lowerFrom before cs) :
    lowerChar d = [d] := by
  induction cs generalizing before with
  | nil => cases h
  | cons c cs ih =>
    rw [lowerFrom] at h
    rcases List.mem_append.mp h with h | h
    · split at h
      · split at h
        · obtain rfl := List.mem_singleton.mp h
          exact lowerChar_of_mem_extra _ (by simp only [List.mem_cons, true_or, or_true])
        · obtain rfl := List.mem_singleton.mp h
          exact lowerChar_of_mem_extra _ (by simp only [List.mem_cons, true_or, or_true])
      · exact lowerChar_of_mem_lowerChar h
    · exact ih h

/-! ## Texts without other capitals than Latin ones -/

variable {s t : String}

/-- Each character of the text has the lower case that it has as a Latin letter, or none. -/
def IsLatinCased (s : String) : Prop :=
  ∀ c ∈ s.toList, lowerChar c = [c.toLower]

instance (s : String) : Decidable (IsLatinCased s) :=
  List.decidableBAll _ s.toList

theorem sameAscii_iff : sameAscii s t = true ↔ asciiLower s = asciiLower t := by
  rw [sameAscii, beq_iff_eq, ← toList_asciiLower, ← toList_asciiLower, String.toList_inj]

theorem sameAscii_congr_right
    (h : sameAscii s t = true) (u : String) :
    sameAscii u s = sameAscii u t := by
  rw [Bool.eq_iff_iff, sameAscii_iff, sameAscii_iff, sameAscii_iff.mp h]

theorem caseKey_eq_of_sameAscii
    (h : sameAscii s t = true) :
    caseKey s = caseKey t := by
  rw [← caseKey_asciiLower s, sameAscii_iff.mp h, caseKey_asciiLower]

theorem IsLatinCased.caseKey_eq
    (h : IsLatinCased s) :
    caseKey s = (asciiLower s).toList := by
  rw [caseKey, List.flatMap_congr h, ← List.map_eq_flatMap, toList_asciiLower]

theorem lowerFrom_eq_map
    {before cs : List Char} (h : ∀ c ∈ cs, lowerChar c = [c.toLower]) :
    lowerFrom before cs = cs.map Char.toLower := by
  induction cs generalizing before with
  | nil => rfl
  | cons c cs ih =>
    have hc := h c List.mem_cons_self
    have hsigma : c ≠ 'Σ' := by
      rintro rfl
      rw [lowerChar_capitalSigma] at hc
      exact absurd hc (by decide)
    rw [lowerFrom, if_neg hsigma, hc, ih fun d hd => h d (List.mem_cons_of_mem c hd)]
    rfl

theorem IsLatinCased.lower_eq
    (h : IsLatinCased s) :
    lower s = asciiLower s := by
  rw [lower, lowerFrom_eq_map h, asciiLower]

theorem lowerChar_of_mem_lower
    {c : Char} (h : c ∈ (lower s).toList) :
    lowerChar c = [c] := by
  rw [lower, String.toList_ofList] at h
  exact lowerChar_of_mem_lowerFrom h

/-- What is spelled like a text in lower case, up to the case of Latin letters, has no other
capitals. -/
theorem isLatinCased_of_sameAscii_lower
    (h : sameAscii (lower t) s = true) :
    IsLatinCased s := by
  intro c hc
  have hlower := congrArg String.toList (sameAscii_iff.mp h)
  rw [asciiLower_lower, toList_asciiLower] at hlower
  have hmem : c.toLower ∈ (lower t).toList := hlower ▸ List.mem_map_of_mem hc
  rw [← lowerChar_toLower, lowerChar_of_mem_lower hmem]

theorem isLatinCased_iff_sameAscii_lower : IsLatinCased s ↔ sameAscii (lower s) s = true := by
  constructor
  · intro h
    rw [sameAscii_iff, h.lower_eq, asciiLower_asciiLower]
  · exact isLatinCased_of_sameAscii_lower

theorem IsLatinCased.sameAscii_iff_caseKey_eq
    (hs : IsLatinCased s) (ht : IsLatinCased t) :
    sameAscii s t = true ↔ caseKey s = caseKey t := by
  rw [hs.caseKey_eq, ht.caseKey_eq, String.toList_inj, sameAscii_iff]

end SqlSnapshot.Text
