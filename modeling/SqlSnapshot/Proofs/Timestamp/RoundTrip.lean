import Mathlib.Data.List.TakeWhile
import Mathlib.Tactic.Positivity
import SqlSnapshot.Proofs.Text.Digits
import SqlSnapshot.Proofs.Timestamp.Calendar

/-!
# Written timestamps read back

Each part of a written timestamp has a fixed number of digits, or ends before a character that is
no digit, so that the reader of the part takes exactly what was written.  The instants for which
this holds are those that dates with a year in range stand for, and no others are ever read.
-/

namespace SqlSnapshot.Timestamp

/-- An instant that a date in UTC stands for.  A leap second lies at the end of a minute. -/
structure IsInstant (t : Timestamp) : Prop where
  first : firstSecond ≤ t.seconds
  last : t.seconds ≤ lastSecond
  fraction : t.nanos < 1000000000 ∨ t.nanos < 2000000000 ∧ t.seconds % 60 = 59

instance : DecidablePred IsInstant := fun t =>
  decidable_of_iff (firstSecond ≤ t.seconds ∧ t.seconds ≤ lastSecond ∧
      (t.nanos < 1000000000 ∨ t.nanos < 2000000000 ∧ t.seconds % 60 = 59))
    ⟨fun h => ⟨h.1, h.2.1, h.2.2⟩, fun h => ⟨h.first, h.last, h.fraction⟩⟩

/-! ## Digits -/

theorem isDigit_of_mem_padded {width n : Nat} {c : Char} (h : c ∈ padded width n) :
    Text.isDigit c = true := by
  simp only [padded, List.mem_append, List.mem_replicate] at h
  rcases h with ⟨-, rfl⟩ | h
  · rfl
  · exact Text.isDigit_of_mem_toDigits h

theorem ofDigitChars_padded (width n : Nat) : Nat.ofDigitChars 10 (padded width n) 0 = n := by
  simp [padded, Nat.ofDigitChars_append]

theorem padded_ne_nil (width n : Nat) : padded width n ≠ [] := by
  simp [padded]

theorem length_padded {width n : Nat} (hwidth : 0 < width) (h : n < 10 ^ width) :
    (padded width n).length = width := by
  have hle := (Nat.length_toDigits_le_iff (by decide) hwidth).mpr h
  simp only [padded, List.length_append, List.length_replicate]
  omega

/-- What follows cannot be taken for one more digit. -/
def EndsDigits (rest : List Char) : Prop :=
  ∀ c cs, rest = c :: cs → Text.isDigit c = false

theorem endsDigits_cons {c : Char} (h : Text.isDigit c = false) (cs : List Char) :
    EndsDigits (c :: cs) := by
  intro d ds heq
  cases heq
  exact h

theorem takeWhile_take_digits {ds rest : List Char} {most : Nat}
    (hds : ∀ c ∈ ds, Text.isDigit c = true) (hmost : ds.length ≤ most)
    (hrest : ds.length = most ∨ EndsDigits rest) :
    ((ds ++ rest).take most).takeWhile Text.isDigit = ds := by
  rw [List.take_append, List.take_of_length_le hmost, List.takeWhile_append_of_pos hds]
  rcases hrest with heq | hends
  · simp [heq]
  · cases hcs : rest.take (most - ds.length) with
    | nil => simp
    | cons c cs =>
      cases rest with
      | nil => simp at hcs
      | cons d ds' =>
        have hhead : d = c := by
          cases hn : most - ds.length with
          | zero => simp [hn] at hcs
          | succ n => simp_all
        have hdigit := hends d ds' rfl
        rw [hhead] at hdigit
        simp [hdigit]

theorem readDigits?_append {ds rest : List Char} {most : Nat}
    (hds : ∀ c ∈ ds, Text.isDigit c = true) (hne : ds ≠ []) (hmost : ds.length ≤ most)
    (hrest : ds.length = most ∨ EndsDigits rest) :
    readDigits? most (ds ++ rest) = some (Nat.ofDigitChars 10 ds 0, rest) := by
  have hempty : ds.isEmpty = false := by simpa using hne
  simp only [readDigits?, takeWhile_take_digits hds hmost hrest, hempty, Bool.false_eq_true,
    if_false, Text.foldl_digits_eq, List.drop_left]

theorem readDigits?_padded {width n : Nat} (hwidth : 0 < width) (h : n < 10 ^ width)
    (rest : List Char) : readDigits? width (padded width n ++ rest) = some (n, rest) := by
  have hlength := length_padded hwidth h
  rw [readDigits?_append (fun _ => isDigit_of_mem_padded) (padded_ne_nil width n) hlength.le
    (Or.inl hlength), ofDigitChars_padded]

theorem skipBlank_padded (width n : Nat) (rest : List Char) :
    skipBlank (padded width n ++ rest) = padded width n ++ rest := by
  obtain ⟨c, cs, hcs⟩ := List.exists_cons_of_ne_nil (padded_ne_nil width n)
  have hdigit := isDigit_of_mem_padded (hcs ▸ List.mem_cons_self : c ∈ padded width n)
  simp [skipBlank, Text.trimStart, hcs, Text.isBlank_of_isDigit hdigit]

/-! ## Parts of a date -/

theorem readPart?_padded {n : Nat} (h : n < 100) (rest : List Char) :
    readPart? (padded 2 n ++ rest) = some (n, rest) := by
  rw [readPart?, skipBlank_padded]
  exact readDigits?_padded (by decide) h rest

theorem readDigits?_signed {n : Nat} {rest : List Char} (hrest : EndsDigits rest) :
    readDigits? (padded 4 n ++ rest).length (padded 4 n ++ rest) = some (n, rest) := by
  have hread := readDigits?_append (fun _ => isDigit_of_mem_padded) (padded_ne_nil 4 n)
    (show (padded 4 n).length ≤ (padded 4 n ++ rest).length by simp) (Or.inr hrest)
  rwa [ofDigitChars_padded] at hread

theorem readYear?_writeYear (year : Int) {rest : List Char} (hrest : EndsDigits rest) :
    readYear? (writeYear year ++ rest) = some (year, rest) := by
  unfold writeYear
  split
  · have hminus : skipBlank ('-' :: padded 4 year.natAbs ++ rest) =
        '-' :: (padded 4 year.natAbs ++ rest) := rfl
    simp only [readYear?, hminus, readDigits?_signed hrest, Option.map_some, Option.some.injEq,
      Prod.mk.injEq, and_true]
    omega
  · split
    · have hplus : skipBlank ('+' :: padded 4 year.natAbs ++ rest) =
          '+' :: (padded 4 year.natAbs ++ rest) := rfl
      simp only [readYear?, hplus, readDigits?_signed hrest, Option.map_some, Option.some.injEq,
        Prod.mk.injEq, and_true]
      omega
    · have hread := readDigits?_padded (show 0 < 4 by decide)
        (show year.natAbs < 10 ^ 4 by omega) rest
      have hsign : ∀ c cs, padded 4 year.natAbs ++ rest = c :: cs → c ≠ '-' ∧ c ≠ '+' := by
        intro c cs heq
        obtain ⟨d, ds, hds⟩ := List.exists_cons_of_ne_nil (padded_ne_nil 4 year.natAbs)
        have hdigit :=
          isDigit_of_mem_padded (hds ▸ List.mem_cons_self : d ∈ padded 4 year.natAbs)
        rw [hds, List.cons_append, List.cons.injEq] at heq
        rw [heq.1] at hdigit
        constructor <;> rintro rfl <;> exact absurd hdigit (by decide)
      unfold readYear?
      rw [skipBlank_padded]
      split
      · rename_i cs heq
        exact absurd rfl (hsign _ _ heq).1
      · rename_i cs heq
        exact absurd rfl (hsign _ _ heq).2
      · rw [hread]
        simp only [Option.map_some, Option.some.injEq, Prod.mk.injEq, and_true]
        omega

theorem readFraction?_padded {width n : Nat} (hwidth : 0 < width) (hnine : width ≤ 9)
    (h : n < 10 ^ width) {rest : List Char} (hrest : EndsDigits rest) :
    readFraction? ('.' :: padded width n ++ rest) = some (n * 10 ^ (9 - width), rest) := by
  have hlength := length_padded hwidth h
  have hdigits : ∀ c ∈ padded width n, Text.isDigit c = true := fun _ => isDigit_of_mem_padded
  have htake := takeWhile_take_digits hdigits (hlength ▸ hnine) (Or.inr hrest)
  have hread := readDigits?_append hdigits (padded_ne_nil width n) (hlength ▸ hnine) (Or.inr hrest)
  have hdrop : rest.dropWhile Text.isDigit = rest := by
    cases rest with
    | nil => rfl
    | cons c cs => simp [hrest c cs rfl]
  rw [ofDigitChars_padded] at hread
  simp only [List.cons_append, readFraction?, htake, hread, Option.map_some, hlength, hdrop]
  rfl

theorem readFraction?_writeFraction {nanos : Nat} (h : nanos < 1000000000) {rest : List Char}
    (hrest : EndsDigits rest) (hdot : ∀ cs, rest ≠ '.' :: cs) :
    readFraction? (writeFraction nanos ++ rest) = some (nanos, rest) := by
  unfold writeFraction
  split
  · rename_i hzero
    simp only [beq_iff_eq] at hzero
    rw [List.nil_append, hzero]
    unfold readFraction?
    split
    · rename_i cs
      exact absurd rfl (hdot cs)
    · rfl
  · split
    · rename_i hmillis
      simp only [beq_iff_eq] at hmillis
      rw [readFraction?_padded (by decide) (by decide) (by omega) hrest]
      simp only [Option.some.injEq, Prod.mk.injEq, and_true]
      omega
    · split
      · rename_i hmicros
        simp only [beq_iff_eq] at hmicros
        rw [readFraction?_padded (by decide) (by decide) (by omega) hrest]
        simp only [Option.some.injEq, Prod.mk.injEq, and_true]
        omega
      · rw [readFraction?_padded (by decide) (by decide) (by omega) hrest]
        simp

/-! ## Dates -/

theorem mark?_cons {layout : Layout} {mark : Char} (h : Text.isBlank mark = false)
    (rest : List Char) : layout.mark? mark (mark :: rest) = some rest := by
  have hskip : skipBlank (mark :: rest) = mark :: rest := by
    simp [skipBlank, Text.trimStart, h]
  unfold Layout.mark?
  split <;> simp [hskip, readMark?]

/-- Date and time of day in their written form are read part by part. -/
theorem readLocal?_parts {year : Int} {month day hour minute second fraction : Nat}
    (hyear : firstYear ≤ year ∧ year ≤ lastYear) (hmonth : 1 ≤ month ∧ month ≤ 12)
    (hday : 1 ≤ day ∧ day ≤ daysInMonth year month) (hhour : hour ≤ 23) (hminute : minute ≤ 59)
    (hsecond : second ≤ 60) (hfraction : fraction < 1000000000) :
    readLocal? .relaxed (writeYear year ++ '-' :: padded 2 month ++ '-' :: padded 2 day ++ 'T' ::
      padded 2 hour ++ ':' :: padded 2 minute ++ ':' :: padded 2 second ++
        writeFraction fraction ++ ['Z']) =
    some (⟨dayNumber year month day * 86400 +
        ((hour * 3600 + minute * 60 + (if second = 60 then 59 else second) : Nat) : Int),
      if second = 60 then 1000000000 + fraction else fraction⟩, ['Z']) := by
  have hlength : daysInMonth year month ≤ 31 := by
    have hcases := daysInMonth_cases year month
    split at hcases <;> omega
  have hdash : Text.isBlank '-' = false := by decide
  have hcolon : Text.isBlank ':' = false := by decide
  have hends (cs : List Char) : EndsDigits ('-' :: cs) := endsDigits_cons (by decide) cs
  simp only [List.append_assoc, List.cons_append]
  unfold readLocal?
  -- One step for each part of the text; what is left is the check of the ranges.
  refine Option.bind_eq_some_iff.mpr ⟨_, readYear?_writeYear year (hends _), ?_⟩
  refine Option.bind_eq_some_iff.mpr ⟨_, mark?_cons hdash _, ?_⟩
  refine Option.bind_eq_some_iff.mpr ⟨_, readPart?_padded (show month < 100 by omega) _, ?_⟩
  refine Option.bind_eq_some_iff.mpr ⟨_, mark?_cons hdash _, ?_⟩
  refine Option.bind_eq_some_iff.mpr ⟨_, readPart?_padded (show day < 100 by omega) _, ?_⟩
  refine Option.bind_eq_some_iff.mpr ⟨_, rfl, ?_⟩
  refine Option.bind_eq_some_iff.mpr ⟨_, readPart?_padded (show hour < 100 by omega) _, ?_⟩
  refine Option.bind_eq_some_iff.mpr ⟨_, mark?_cons hcolon _, ?_⟩
  refine Option.bind_eq_some_iff.mpr ⟨_, readPart?_padded (show minute < 100 by omega) _, ?_⟩
  refine Option.bind_eq_some_iff.mpr ⟨_, mark?_cons hcolon _, ?_⟩
  refine Option.bind_eq_some_iff.mpr ⟨_, readPart?_padded (show second < 100 by omega) _, ?_⟩
  refine Option.bind_eq_some_iff.mpr
    ⟨_, readFraction?_writeFraction hfraction (endsDigits_cons rfl []) (by simp), ?_⟩
  simp [hyear, hmonth, hday, hhour, hminute, hsecond]

theorem readLocal?_write {t : Timestamp} (h : IsInstant t) :
    readLocal? .relaxed t.write = some (t, ['Z']) := by
  obtain ⟨year, month, day, hdate⟩ :
      ∃ year month day, civilDate (t.seconds / 86400) = (year, month, day) :=
    ⟨_, _, _, rfl⟩
  obtain ⟨hnumber, hmonth, hmonth', hday, hday'⟩ := civilDate_spec _ hdate
  have hlength : daysInMonth year month ≤ 31 := by
    have hcases := daysInMonth_cases year month
    split at hcases <;> omega
  have hyear : firstYear ≤ year := by
    apply firstYear_le_of_dayNumber ⟨hmonth, hmonth'⟩ (hday'.trans hlength)
    have hfirst := h.first
    rw [firstSecond] at hfirst
    omega
  have hyear' : year ≤ lastYear := by
    apply le_lastYear_of_dayNumber ⟨hmonth, hmonth'⟩ hday
    have hlast := h.last
    rw [lastSecond] at hlast
    omega
  simp only [write, hdate]
  generalize hofDay : (t.seconds % 86400).toNat = secondOfDay
  have hsecondOfDay : secondOfDay < 86400 := by omega
  by_cases hleap : 1000000000 ≤ t.nanos
  · obtain hfraction | ⟨hfraction, hminute⟩ := h.fraction
    · omega
    have hlast : secondOfDay % 60 = 59 := by omega
    simp only [hleap, if_true, hlast]
    rw [readLocal?_parts ⟨hyear, hyear'⟩ ⟨hmonth, hmonth'⟩ ⟨hday, hday'⟩ (by omega) (by omega)
      (by omega) (by omega)]
    change some ((⟨_, _⟩ : Timestamp), ['Z']) = some (⟨t.seconds, t.nanos⟩, ['Z'])
    simp only [hnumber, if_true, Option.some.injEq, Prod.mk.injEq, mk.injEq, and_true]
    omega
  · simp only [hleap, if_false]
    rw [readLocal?_parts ⟨hyear, hyear'⟩ ⟨hmonth, hmonth'⟩ ⟨hday, hday'⟩ (by omega) (by omega)
      (by omega) (by omega)]
    have hnotLeap : ¬ secondOfDay % 60 = 60 := by omega
    change some ((⟨_, _⟩ : Timestamp), ['Z']) = some (⟨t.seconds, t.nanos⟩, ['Z'])
    simp only [hnumber, add_zero, hnotLeap, if_false, Option.some.injEq, Prod.mk.injEq, mk.injEq,
      and_true]
    omega

/-- The text of an instant is read as the instant. -/
theorem parse?_render {t : Timestamp} (h : IsInstant t) : parse? t.render = some t := by
  have hoffset : readOffset? (skipBlank ['Z']) = some (0, []) := by decide
  have hat : t.atOffset? 0 = some t := by
    simp [atOffset?, h.first, h.last]
  simp only [parse?, render, String.toList_ofList, readLocal?_write h, Option.bind_eq_bind,
    Option.bind_some, hoffset, hat]
  rfl

/-! ## What is read is an instant -/

theorem lt_of_readFraction? {cs rest : List Char} {fraction : Nat}
    (h : readFraction? cs = some (fraction, rest)) : fraction < 1000000000 := by
  unfold readFraction? at h
  split at h
  · rename_i cs
    generalize hdigits : (cs.take 9).takeWhile Text.isDigit = digits at h
    have hall : ∀ c ∈ digits, Text.isDigit c = true := by
      intro c hc
      rw [← hdigits] at hc
      exact List.mem_takeWhile_imp hc
    have hlength : digits.length ≤ 9 := by
      rw [← hdigits]
      exact (List.takeWhile_prefix _).length_le.trans (List.length_take_le 9 cs)
    simp only [readDigits?, hdigits] at h
    split at h
    · simp at h
    · simp only [Option.map_some, Option.some.injEq, Prod.mk.injEq, Text.foldl_digits_eq] at h
      rw [← h.1]
      calc Nat.ofDigitChars 10 digits 0 * 10 ^ (9 - digits.length)
          < 10 ^ digits.length * 10 ^ (9 - digits.length) :=
            Nat.mul_lt_mul_of_pos_right (Text.ofDigitChars_lt hall) (by positivity)
        _ = 10 ^ (digits.length + (9 - digits.length)) := (pow_add ..).symm
        _ = 10 ^ 9 := by rw [Nat.add_sub_cancel' hlength]
  · simp only [Option.some.injEq, Prod.mk.injEq] at h
    omega

theorem fraction_of_readLocal? {cs rest : List Char} {t : Timestamp}
    (h : readLocal? .relaxed cs = some (t, rest)) :
    t.nanos < 1000000000 ∨ t.nanos < 2000000000 ∧ t.seconds % 60 = 59 := by
  unfold readLocal? at h
  obtain ⟨⟨year, _⟩, -, h⟩ := Option.bind_eq_some_iff.mp h
  obtain ⟨_, -, h⟩ := Option.bind_eq_some_iff.mp h
  obtain ⟨⟨month, _⟩, -, h⟩ := Option.bind_eq_some_iff.mp h
  obtain ⟨_, -, h⟩ := Option.bind_eq_some_iff.mp h
  obtain ⟨⟨day, _⟩, -, h⟩ := Option.bind_eq_some_iff.mp h
  obtain ⟨_, -, h⟩ := Option.bind_eq_some_iff.mp h
  obtain ⟨⟨hour, _⟩, -, h⟩ := Option.bind_eq_some_iff.mp h
  obtain ⟨_, -, h⟩ := Option.bind_eq_some_iff.mp h
  obtain ⟨⟨minute, _⟩, -, h⟩ := Option.bind_eq_some_iff.mp h
  obtain ⟨_, -, h⟩ := Option.bind_eq_some_iff.mp h
  obtain ⟨⟨second, _⟩, -, h⟩ := Option.bind_eq_some_iff.mp h
  obtain ⟨⟨fraction, _⟩, hfraction, h⟩ := Option.bind_eq_some_iff.mp h
  have hbound : fraction < 1000000000 := lt_of_readFraction? hfraction
  obtain ⟨-, h⟩ := Option.ite_none_right_eq_some.mp h
  simp only [Option.some.injEq, Prod.mk.injEq] at h
  rw [← h.1]
  by_cases hleap : (second == 60) = true
  · simp only [hleap, if_true]
    omega
  · simp only [hleap]
    exact Or.inl hbound

theorem offset_of_readOffset? {cs rest : List Char} {offset : Int}
    (h : readOffset? cs = some (offset, rest)) : offset % 60 = 0 := by
  have hzero {rest' : List Char} (h : some ((0 : Int), rest') = some (offset, rest)) :
      offset % 60 = 0 := by
    simp only [Option.some.injEq, Prod.mk.injEq] at h
    omega
  unfold readOffset? at h
  split at h
  · exact hzero h
  · exact hzero h
  · split at h
    · exact hzero h
    · split at h
      · split at h
        · simp only [Option.bind_eq_bind, Option.bind_eq_some_iff, Prod.exists] at h
          obtain ⟨hours, _, -, minutes, _, -, h⟩ := h
          split at h
          · simp only [Option.some.injEq, Prod.mk.injEq] at h
            have hoffset := h.1
            split at hoffset <;> omega
          · simp at h
        · simp at h
      · simp at h

theorem isInstant_of_parse? {s : String} {t : Timestamp} (h : parse? s = some t) :
    IsInstant t := by
  simp only [parse?, Option.bind_eq_bind, Option.bind_eq_some_iff, Prod.exists] at h
  obtain ⟨local_, cs, hlocal, offset, rest, hoffset, h⟩ := h
  split at h
  · have hfraction := fraction_of_readLocal? hlocal
    have hminutes := offset_of_readOffset? hoffset
    simp only [atOffset?] at h
    split at h
    · rename_i hrange
      simp only [Bool.and_eq_true, decide_eq_true_eq] at hrange
      simp only [Option.some.injEq] at h
      subst h
      refine ⟨hrange.1, hrange.2, ?_⟩
      dsimp only
      omega
    · simp at h
  · simp at h

end SqlSnapshot.Timestamp
