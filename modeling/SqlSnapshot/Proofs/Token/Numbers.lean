import SqlSnapshot.Proofs.Token.Endings

/-!
# Where numbers end

A number goes on with digits, one point, an exponent whose sign may turn out to have no digits, and
the mark of a long literal; none of these opens a comment.  The number that is read off
`cs ++ post` and leaves `rest ++ post` over is read off `cs ++ tail` as well if `tail` opens a
comment, although its reader looks up to three characters ahead.
-/

namespace SqlSnapshot.Token

variable {post tail : List Char}

/-- An exponent whose mark and sign are `start`. -/
def exponentDigits (start cs : List Char) : List Char × List Char :=
  if (cs.takeWhile Text.isDigit).isEmpty then ([], start ++ cs)
  else (start ++ cs.takeWhile Text.isDigit, cs.dropWhile Text.isDigit)

theorem readExponent_cons (e : Char) (cs : List Char) :
    readExponent (e :: cs) =
      if e = 'e' ∨ e = 'E' then
        if cs.head? = some '+' ∨ cs.head? = some '-' then
          exponentDigits (e :: cs.take 1) cs.tail
        else exponentDigits [e] cs
      else ([], e :: cs) := by
  rcases cs with _ | ⟨d, ds⟩
  · simp [readExponent, exponentDigits]
  by_cases hplus : d = '+'
  · subst hplus
    simp [readExponent, exponentDigits]
  by_cases hminus : d = '-'
  · subst hminus
    simp [readExponent, exponentDigits]
  · simp [readExponent, exponentDigits, hplus, hminus]

theorem exponentDigits_replace (h : StartsComment tail) {start cs e rest : List Char}
    (hr : exponentDigits start (cs ++ post) = (e, rest ++ post)) :
    exponentDigits start (cs ++ tail) = (e, rest ++ tail) := by
  have hp := h.stops (p := Text.isDigit) (by decide) (by decide)
  unfold exponentDigits at hr ⊢
  split at hr
  · rename_i hnone
    rw [(span_replace hp (dropWhile_of_isEmpty hnone)).2, if_pos hnone]
    simp only [Prod.mk.injEq, ← List.append_assoc, List.append_cancel_right_eq] at hr ⊢
    exact hr
  · rename_i hsome
    simp only [Prod.mk.injEq] at hr
    obtain ⟨h1, h2⟩ := span_replace hp hr.2
    rw [h2, if_neg hsome, h1, hr.1]

theorem length_exponentDigits (start cs : List Char) :
    exponentDigits start cs = ([], start ++ cs) ∨
      (exponentDigits start cs).2.length < cs.length := by
  unfold exponentDigits
  split
  · exact .inl rfl
  · rename_i hsome
    right
    have := congrArg List.length (List.takeWhile_append_dropWhile (p := Text.isDigit) (l := cs))
    have : 0 < (cs.takeWhile Text.isDigit).length := by
      rw [List.length_pos_iff]
      simpa using hsome
    simp only [List.length_append] at *
    omega

theorem length_readExponent_cons (e : Char) (cs : List Char) :
    readExponent (e :: cs) = ([], e :: cs) ∨ (readExponent (e :: cs)).2.length < cs.length := by
  rw [readExponent_cons]
  split
  · split
    · rcases cs with _ | ⟨d, ds⟩
      · simp at *
      · rcases length_exponentDigits [e, d] ds with hd | hd
        · exact .inl hd
        · exact .inr (by simp at *; omega)
    · exact length_exponentDigits [e] cs
  · exact .inl rfl

theorem readExponent_replace (h : StartsComment tail) {cs e rest : List Char}
    (hr : readExponent (cs ++ post) = (e, rest ++ post)) :
    readExponent (cs ++ tail) = (e, rest ++ tail) := by
  match cs with
  | [] =>
    have hpost : readExponent post = ([], post) := by
      rcases post with _ | ⟨c, cs⟩
      · rfl
      rcases length_readExponent_cons c cs with hp | hp
      · exact hp
      · simp only [List.nil_append] at hr
        simp [hr] at hp
        omega
    obtain ⟨rfl, rfl⟩ : [] = e ∧ rest = [] := by simpa [hpost] using hr
    cases h <;> simp [readExponent]
  | [c] =>
    rcases length_readExponent_cons c post with hp | hp
    · obtain ⟨rfl, rfl⟩ : [] = e ∧ [c] = rest := by
        simp only [List.singleton_append, hp, Prod.mk.injEq] at hr
        exact ⟨hr.1, List.append_cancel_right (show [c] ++ post = rest ++ post from hr.2)⟩
      cases h <;> simp [readExponent_cons, exponentDigits, Text.isDigit]
    · simp only [List.singleton_append] at hr
      simp only [hr, List.length_append] at hp
      omega
  | c :: d :: ds =>
    simp only [List.cons_append, readExponent_cons, List.head?_cons, List.take_succ_cons,
      List.take_zero, List.tail_cons, Option.some.injEq] at hr ⊢
    split_ifs at hr ⊢
    · exact exponentDigits_replace h hr
    · exact exponentDigits_replace h (show exponentDigits [c] (d :: ds ++ post) = _ from hr)
    · simp only [Prod.mk.injEq] at hr ⊢
      have := List.append_cancel_right (show c :: d :: ds ++ post = rest ++ post from hr.2)
      simp [← this, hr.1]

theorem skipLong_replace (h : StartsComment tail) {cs rest : List Char}
    (hr : skipLong (cs ++ post) = rest ++ post) : skipLong (cs ++ tail) = rest ++ tail := by
  rcases cs with _ | ⟨c, cs⟩
  · have hrest : rest = [] := by
      have := (isSuffix_skipLong ([] ++ post)).length_le
      rw [hr] at this
      exact eq_nil_of_length_le this
    cases h <;> simp [skipLong, hrest]
  · by_cases hc : c = 'L'
    · subst hc
      simpa [skipLong] using hr
    · simp only [List.cons_append] at hr ⊢
      have hkeep : ∀ ds, skipLong (c :: ds) = c :: ds := by simp [skipLong, hc]
      rw [hkeep] at hr ⊢
      have := List.append_cancel_right (show c :: cs ++ post = rest ++ post from hr)
      simp [← this]

theorem finishNumber_replace (h : StartsComment tail) {start cs rest : List Char} {l : Lexeme}
    (hr : finishNumber start (cs ++ post) = (l, rest ++ post)) :
    finishNumber start (cs ++ tail) = (l, rest ++ tail) := by
  have hp := h.stops (p := Text.isDigit) (by decide) (by decide)
  unfold finishNumber at hr ⊢
  dsimp only at hr ⊢
  split at hr
  · rename_i hpoint
    obtain ⟨rfl, hcs⟩ := Prod.mk.inj hr
    obtain rfl : cs = rest := List.append_cancel_right hcs
    rw [(span_replace hp (dropWhile_of_isEmpty hpoint.2)).2, if_pos hpoint]
  · rename_i hnumber
    obtain ⟨rfl, hskip⟩ := Prod.mk.inj hr
    generalize hplaces : (cs ++ post).dropWhile Text.isDigit = places at hskip ⊢
    have hlong : rest ++ post <:+ (readExponent places).2 := hskip ▸ isSuffix_skipLong _
    have hexp := isSuffix_readExponent places
    have hpost : post <:+ rest ++ post := List.suffix_append rest post
    obtain ⟨r, rfl⟩ := exists_append_of_suffix (hplaces ▸ List.dropWhile_suffix Text.isDigit)
      ((hpost.trans hlong).trans hexp).length_le
    obtain ⟨z, hz⟩ := exists_append_of_suffix hexp (hpost.trans hlong).length_le
    obtain ⟨h1, h2⟩ := span_replace hp hplaces
    have h3 := readExponent_replace h (Prod.ext rfl hz : readExponent (r ++ post) = (_, z ++ post))
    rw [hz] at hskip
    rw [h2, if_neg hnumber, h1, h3, skipLong_replace h hskip]

/-- A number after its integer digits `whole`. -/
def numberAfter (whole cs : List Char) : Lexeme × List Char :=
  if whole = ['0'] ∧ cs.head? = some 'x' then
    (.symbol (.other "0x"), cs.tail.dropWhile Text.isHexDigit)
  else if cs.head? = some '.' then finishNumber (whole ++ ['.']) cs.tail
  else finishNumber whole cs

theorem readNumber_eq (cs : List Char) :
    readNumber cs = numberAfter (cs.takeWhile Text.isDigit) (cs.dropWhile Text.isDigit) := by
  unfold readNumber numberAfter
  dsimp only
  split
  · simp [*]
  · simp [*]
  · rename_i hpoint hhex
    rcases hd : cs.dropWhile Text.isDigit with _ | ⟨c, r⟩
    · simp
    · have hc : c ≠ '.' := by
        rintro rfl
        exact hpoint r hd
      have hx : ¬ (cs.takeWhile Text.isDigit = ['0'] ∧ c = 'x') := by
        rintro ⟨hw, rfl⟩
        exact hhex r hw hd
      simp [hc, hx]

theorem length_numberAfter (whole cs : List Char) :
    (numberAfter whole cs).2.length ≤ cs.length := by
  unfold numberAfter
  have htail : cs.tail.length ≤ cs.length := by simp
  split_ifs
  · exact Nat.le_trans (length_dropWhile_le _ _) htail
  · exact Nat.le_trans (isSuffix_finishNumber _ _).length_le htail
  · exact (isSuffix_finishNumber _ _).length_le

theorem numberAfter_replace (h : StartsComment tail) {whole cs rest : List Char} {l : Lexeme}
    (hr : numberAfter whole (cs ++ post) = (l, rest ++ post)) :
    numberAfter whole (cs ++ tail) = (l, rest ++ tail) := by
  have hx := h.head?_ne (c := 'x') (by decide) (by decide)
  have hpoint := h.head?_ne (c := '.') (by decide) (by decide)
  unfold numberAfter at hr ⊢
  rcases cs with _ | ⟨c, cs⟩
  · simp only [List.nil_append, hx, hpoint, and_false, if_false] at hr ⊢
    split_ifs at hr with hmark hmark
    · have hlen := length_dropWhile_le Text.isHexDigit post.tail
      rw [(Prod.mk.inj hr).2] at hlen
      exact absurd hlen (not_length_le_tail rest hmark.2)
    · have hlen := (isSuffix_finishNumber (whole ++ ['.']) post.tail).length_le
      rw [hr] at hlen
      exact absurd hlen (not_length_le_tail rest hmark)
    · exact finishNumber_replace h (show finishNumber whole ([] ++ post) = _ from hr)
  · simp only [List.cons_append, List.head?_cons, List.tail_cons, Option.some.injEq] at hr ⊢
    split_ifs at hr ⊢
    · obtain ⟨rfl, hd⟩ := Prod.mk.inj hr
      have hp := h.stops (p := Text.isHexDigit) (by decide) (by decide)
      rw [(span_replace hp hd).1]
    · exact finishNumber_replace h hr
    · exact finishNumber_replace h (show finishNumber whole (c :: cs ++ post) = _ from hr)

theorem readNumber_replace (h : StartsComment tail) {cs rest : List Char} {l : Lexeme}
    (hr : readNumber (cs ++ post) = (l, rest ++ post)) :
    readNumber (cs ++ tail) = (l, rest ++ tail) := by
  have hp := h.stops (p := Text.isDigit) (by decide) (by decide)
  rw [readNumber_eq] at hr ⊢
  have hlen := length_numberAfter ((cs ++ post).takeWhile Text.isDigit)
    ((cs ++ post).dropWhile Text.isDigit)
  rw [hr] at hlen
  obtain ⟨r, hdigits⟩ := exists_append_of_suffix (List.dropWhile_suffix Text.isDigit)
    (Nat.le_trans (List.suffix_append rest post).length_le hlen)
  obtain ⟨h1, h2⟩ := span_replace hp hdigits
  rw [hdigits] at hr
  rw [h1, h2]
  exact numberAfter_replace h hr

end SqlSnapshot.Token
