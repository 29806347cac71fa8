import SqlSnapshot.Token.Lexer
import Mathlib.Data.List.TakeWhile
import Mathlib.Tactic.SplitIfs

/-!
# Where the parts of lexemes end

A part of a lexeme is a run of characters of one class, or runs up to a closing mark.

A run that ends before the text `post` ends at the same place when `post` is replaced by a text
that opens a comment (`span_replace`, `readName_replace`).

What stands behind the mark that closes a delimited name, a literal or a comment is left over, and
nothing of it is read but the one character that could double a closing quote.  So these parts end
at the same place in a longer text (`*_append`), and end in a text already where they end in a
longer one before its end (`*_of_append`).
-/

namespace SqlSnapshot.Token

/-! ## Runs of characters -/

/-- The text starts with a mark that opens a comment. -/
inductive StartsComment : List Char → Prop
  | line (cs : List Char) : StartsComment ('-' :: '-' :: cs)
  | block (cs : List Char) : StartsComment ('/' :: '*' :: cs)

variable {post tail : List Char}

theorem StartsComment.stops (h : StartsComment tail) {p : Char → Bool} (hline : p '-' = false)
    (hblock : p '/' = false) : ∀ c ∈ tail.head?, p c = false := by
  cases h <;> simp [hline, hblock]

theorem StartsComment.head?_ne (h : StartsComment tail) {c : Char} (hline : c ≠ '-')
    (hblock : c ≠ '/') : tail.head? ≠ some c := by
  cases h <;> simp [hline.symm, hblock.symm]

theorem span_replace {p : Char → Bool} (hp : ∀ c ∈ tail.head?, p c = false)
    {cs rest : List Char} (h : (cs ++ post).dropWhile p = rest ++ post) :
    (cs ++ tail).dropWhile p = rest ++ tail ∧
      (cs ++ tail).takeWhile p = (cs ++ post).takeWhile p := by
  induction cs with
  | nil =>
    have hlen := congrArg List.length h
    have hle := length_dropWhile_le p post
    simp only [List.nil_append, List.length_append] at h hlen ⊢
    obtain rfl : rest = [] := List.length_eq_zero_iff.1 (by omega)
    have hpost : post.takeWhile p = [] := by
      have := List.takeWhile_append_dropWhile (p := p) (l := post)
      rw [h] at this
      simpa using this
    rcases tail with _ | ⟨c, cs⟩
    · simp [hpost]
    · simp [hp c rfl, hpost]
  | cons c cs ih =>
    cases hc : p c
    · simp only [List.cons_append, List.dropWhile_cons, hc] at h ⊢
      have := List.append_cancel_right (show c :: cs ++ post = rest ++ post by simpa using h)
      simp [hc, ← this]
    · simp only [List.cons_append, List.dropWhile_cons, List.takeWhile_cons, hc, if_true] at h ⊢
      simp [ih h]

theorem dropWhile_of_isEmpty {p : Char → Bool} {cs : List Char}
    (h : (cs.takeWhile p).isEmpty = true) : cs.dropWhile p = cs := by
  have hall := List.takeWhile_append_dropWhile (p := p) (l := cs)
  rwa [List.isEmpty_iff.1 h] at hall

theorem exists_append_of_suffix {cs y : List Char} (h : y <:+ cs ++ post)
    (hlen : post.length ≤ y.length) : ∃ r, y = r ++ post := by
  obtain ⟨r, hr⟩ := List.suffix_of_suffix_length_le (List.suffix_append cs post) h hlen
  exact ⟨r, hr.symm⟩

/-- A text that is no longer than `post` is too short to leave over a text that ends with it. -/
theorem not_length_lt {cs rest : List Char} (h : cs.length ≤ post.length) :
    ¬ (rest ++ post).length < cs.length := by
  rw [List.length_append]
  omega

theorem not_length_le_tail (rest : List Char) {c : Char} (h : post.head? = some c) :
    ¬ (rest ++ post).length ≤ post.tail.length := by
  obtain ⟨cs, rfl⟩ := List.head?_eq_some_iff.1 h
  simp only [List.length_append, List.length_cons, List.tail_cons]
  omega

theorem eq_nil_of_length_le {rest : List Char} (h : (rest ++ post).length ≤ post.length) :
    rest = [] := by
  rw [List.length_append] at h
  exact List.length_eq_zero_iff.1 (by omega)

/-- A lexeme of which nothing behind its first character is read. -/
theorem kept_replace {start l : Lexeme} {cs rest : List Char}
    (hr : (start, cs ++ post) = (l, rest ++ post)) :
    (start, cs ++ tail) = (l, rest ++ tail) := by
  obtain ⟨rfl, hcs⟩ := Prod.mk.inj hr
  rw [List.append_cancel_right hcs]

theorem readName_replace (h : StartsComment tail) {start cs rest : List Char} {l : Lexeme}
    (hr : readName start (cs ++ post) = (l, rest ++ post)) :
    readName start (cs ++ tail) = (l, rest ++ tail) := by
  simp only [readName, Prod.mk.injEq] at hr ⊢
  have hp := h.stops (p := isNamePart) (by decide +kernel) (by decide +kernel)
  obtain ⟨h1, h2⟩ := span_replace hp hr.2
  exact ⟨by rw [h2, hr.1], h1⟩

/-! ## Delimited names and literals -/

theorem readDelimited_append {close : Char} (hy : tail.head? ≠ some close)
    {cs text rest : List Char} (h : readDelimited close cs = some (text, rest)) :
    readDelimited close (cs ++ tail) = some (text, rest ++ tail) := by
  fun_induction readDelimited close cs generalizing text rest with
  | case1 => cases h
  | case2 =>
    obtain ⟨rfl, rfl⟩ : [] = text ∧ [] = rest := by simpa using h
    rcases tail with _ | ⟨d, ds⟩
    · simp [readDelimited]
    · have hd : d ≠ close := by simpa using hy
      simp [readDelimited, hd]
  | case3 => cases h
  | case4 cs ih =>
    simp only [Option.map_eq_some_iff, Prod.mk.injEq, Prod.exists] at h
    obtain ⟨t, _, ht, rfl, rfl⟩ := h
    simp [readDelimited, ih ht]
  | case5 d ds hd =>
    obtain ⟨rfl, rfl⟩ : [] = text ∧ d :: ds = rest := by simpa using h
    simp [readDelimited, hd]
  | case6 c d ds hc ih =>
    simp only [Option.map_eq_some_iff, Prod.mk.injEq, Prod.exists] at h
    obtain ⟨t, _, ht, rfl, rfl⟩ := h
    have := ih ht
    rw [List.cons_append] at this
    simp [readDelimited, hc, this]

theorem readDelimited_of_append {close : Char} {cs text rest : List Char}
    (h : readDelimited close (cs ++ post) = some (text, rest ++ post)) :
    readDelimited close cs = some (text, rest) := by
  fun_induction readDelimited close cs generalizing text with
  | case1 => exact absurd (length_readDelimited h) (not_length_lt (Nat.le_refl _))
  | case2 =>
    rcases post with _ | ⟨d, ds⟩
    · simpa [readDelimited] using h
    by_cases hd : d = close
    · subst hd
      simp only [List.cons_append, List.nil_append, readDelimited, if_true,
        Option.map_eq_some_iff, Prod.mk.injEq, Prod.exists] at h
      obtain ⟨t, _, ht, -, rfl⟩ := h
      exact absurd (length_readDelimited ht) (not_length_lt (by simp))
    · simpa [readDelimited, hd] using h
  | case3 c hc =>
    rcases post with _ | ⟨d, ds⟩
    · simp [readDelimited, hc] at h
    simp only [List.cons_append, List.nil_append, readDelimited, hc, if_false,
      Option.map_eq_some_iff, Prod.mk.injEq, Prod.exists] at h
    obtain ⟨t, _, ht, -, rfl⟩ := h
    exact absurd (length_readDelimited ht) (not_length_lt (Nat.le_refl _))
  | case4 cs ih =>
    simp only [List.cons_append, readDelimited, if_true, Option.map_eq_some_iff, Prod.mk.injEq,
      Prod.exists] at h
    obtain ⟨t, _, ht, rfl, rfl⟩ := h
    simp [ih ht]
  | case5 d ds hd =>
    simp only [List.cons_append, readDelimited, hd, if_true, if_false, Option.some.injEq,
      Prod.mk.injEq] at h
    have := List.append_cancel_right (show d :: ds ++ post = rest ++ post from h.2)
    simp [h.1, this]
  | case6 c d ds hc ih =>
    simp only [List.cons_append, readDelimited, hc, if_false, Option.map_eq_some_iff,
      Prod.mk.injEq, Prod.exists] at h
    obtain ⟨t, _, ht, rfl, rfl⟩ := h
    simp [ih ht]

/-! ## Hexadecimal literals -/

theorem skipHexText_cons_cons (c d : Char) (cs : List Char) :
    skipHexText (c :: d :: cs) =
      if c = '\\' then skipHexText cs
      else if c = '\x27' then if d = '\x27' then skipHexText cs else some (d :: cs)
      else skipHexText (d :: cs) := by
  by_cases hc : c = '\\'
  · subst hc
    simp [skipHexText]
  by_cases hq : c = '\x27'
  · subst hq
    by_cases hd : d = '\x27'
    · subst hd
      simp [skipHexText]
    · simp [skipHexText, hd]
  · simp [skipHexText, hc, hq]

theorem skipHexText_append (hy : tail.head? ≠ some '\x27') :
    ∀ {cs rest : List Char}, skipHexText cs = some rest →
      skipHexText (cs ++ tail) = some (rest ++ tail)
  | [], _, h => by cases h
  | [c], rest, h => by
    by_cases hc : c = '\x27'
    · subst hc
      obtain rfl : [] = rest := by simpa [skipHexText] using h
      rcases tail with _ | ⟨d, ds⟩
      · rfl
      · have hd : d ≠ '\x27' := by simpa using hy
        simp [skipHexText_cons_cons, hd]
    · by_cases hb : c = '\\'
      · simp [hb, skipHexText] at h
      · simp [skipHexText, hb] at h
  | c :: d :: ds, rest, h => by
    simp only [List.cons_append, skipHexText_cons_cons] at h ⊢
    split_ifs at h ⊢
    · exact skipHexText_append hy h
    · exact skipHexText_append hy h
    · cases h
      rfl
    · rw [← List.cons_append]
      exact skipHexText_append hy h

theorem skipHexText_of_append {rest : List Char} :
    ∀ {cs : List Char}, skipHexText (cs ++ post) = some (rest ++ post) →
      skipHexText cs = some rest
  | [], h => absurd (length_skipHexText h) (not_length_lt (Nat.le_refl _))
  | [c], h => by
    rcases post with _ | ⟨d, ds⟩
    · simpa using h
    simp only [List.cons_append, List.nil_append, skipHexText_cons_cons] at h
    split_ifs at h with hb hc hd
    · exact absurd (length_skipHexText h) (not_length_lt (by simp))
    · exact absurd (length_skipHexText h) (not_length_lt (by simp))
    · have : rest = [] := by simpa using h
      simp [hc, this, skipHexText]
    · exact absurd (length_skipHexText h) (not_length_lt (Nat.le_refl _))
  | c :: d :: ds, h => by
    simp only [List.cons_append, skipHexText_cons_cons] at h ⊢
    split_ifs at h ⊢
    · exact skipHexText_of_append h
    · exact skipHexText_of_append h
    · have := List.append_cancel_right (show d :: ds ++ post = _ from Option.some.inj h)
      simp [this]
    · rw [← List.cons_append] at h
      exact skipHexText_of_append h

/-! ## Comments -/

theorem skipComment_cons_cons (depth : Nat) (c d : Char) (cs : List Char) :
    skipComment depth (c :: d :: cs) =
      if c = '/' ∧ d = '*' then skipComment (depth + 1) cs
      else if c = '*' ∧ d = '/' then
        if depth = 0 then some cs else skipComment (depth - 1) cs
      else skipComment depth (d :: cs) := by
  by_cases hopen : c = '/' ∧ d = '*'
  · obtain ⟨rfl, rfl⟩ := hopen
    simp [skipComment]
  by_cases hclose : c = '*' ∧ d = '/'
  · obtain ⟨rfl, rfl⟩ := hclose
    cases depth <;> simp [skipComment]
  · have h : skipComment depth (c :: d :: cs) = skipComment depth (d :: cs) := by
      rw [skipComment] <;> simp_all
    simp [h, hopen, hclose]

theorem skipComment_append :
    ∀ {depth : Nat} {cs rest : List Char}, skipComment depth cs = some rest →
      skipComment depth (cs ++ tail) = some (rest ++ tail)
  | _, [], _, h => by simp [skipComment] at h
  | _, [c], _, h => by simp [skipComment] at h
  | depth, c :: d :: ds, rest, h => by
    simp only [List.cons_append, skipComment_cons_cons] at h ⊢
    split_ifs at h ⊢
    · exact skipComment_append h
    · cases h
      rfl
    · exact skipComment_append h
    · rw [← List.cons_append]
      exact skipComment_append h

theorem skipComment_of_append {rest : List Char} :
    ∀ {depth : Nat} {cs : List Char}, skipComment depth (cs ++ post) = some (rest ++ post) →
      skipComment depth cs = some rest
  | _, [], h => absurd (length_skipComment h) (not_length_lt (Nat.le_refl _))
  | depth, [c], h => by
    rcases post with _ | ⟨d, ds⟩
    · simpa using h
    simp only [List.cons_append, List.nil_append, skipComment_cons_cons] at h
    split_ifs at h
    · exact absurd (length_skipComment h) (not_length_lt (by simp))
    · have := congrArg List.length (Option.some.inj h)
      simp at this
      omega
    · exact absurd (length_skipComment h) (not_length_lt (by simp))
    · exact absurd (length_skipComment h) (not_length_lt (Nat.le_refl _))
  | depth, c :: d :: ds, h => by
    simp only [List.cons_append, skipComment_cons_cons] at h ⊢
    split_ifs at h ⊢
    · exact skipComment_of_append h
    · simpa using h
    · exact skipComment_of_append h
    · rw [← List.cons_append] at h
      exact skipComment_of_append h

/-! ## Literals between marks -/

theorem length_skipPast_add {mark cs rest : List Char} (h : skipPast mark cs = some rest) :
    rest.length + mark.length ≤ cs.length := by
  simpa [Nat.add_comm] using (isSuffix_mark_skipPast h).length_le

/-- Whether a mark that fits into a text stands at its front is not changed by more text. -/
theorem isPrefixOf_append {mark cs : List Char} (h : mark.length ≤ cs.length) (more : List Char) :
    mark.isPrefixOf (cs ++ more) = mark.isPrefixOf cs := by
  rw [Bool.eq_iff_iff, List.isPrefixOf_iff_prefix, List.isPrefixOf_iff_prefix]
  exact ⟨fun hp => List.prefix_of_prefix_length_le hp (List.prefix_append cs more) h,
    fun hp => hp.trans (List.prefix_append cs more)⟩

theorem skipPast_append {mark : List Char} (hmark : mark ≠ []) :
    ∀ {cs rest : List Char}, skipPast mark cs = some rest →
      skipPast mark (cs ++ tail) = some (rest ++ tail)
  | [], rest, h => by simp [skipPast, hmark] at h
  | c :: cs, rest, h => by
    have hlen := length_skipPast_add h
    have hpre := isPrefixOf_append (show mark.length ≤ (c :: cs).length by omega) tail
    simp only [List.cons_append, skipPast] at h hpre ⊢
    rw [hpre]
    split at h
    · rename_i hc
      rw [if_pos hc, ← Option.some.inj h, ← List.cons_append,
        List.drop_append_of_le_length (by omega)]
    · rename_i hc
      rw [if_neg hc, skipPast_append hmark h]

theorem skipPast_of_append {mark rest : List Char} (hmark : mark ≠ []) :
    ∀ {cs : List Char}, skipPast mark (cs ++ post) = some (rest ++ post) →
      skipPast mark cs = some rest
  | [], h => by
    have := length_skipPast_add h
    have := List.length_pos_iff.2 hmark
    simp at *
    omega
  | c :: cs, h => by
    have hlen := length_skipPast_add h
    have hfits : mark.length ≤ (c :: cs).length := by
      simp only [List.cons_append, List.length_cons, List.length_append] at hlen ⊢
      omega
    have hpre := isPrefixOf_append hfits post
    simp only [List.cons_append, skipPast] at h hpre ⊢
    rw [hpre] at h
    split at h
    · rename_i hc
      have hd := Option.some.inj h
      rw [← List.cons_append, List.drop_append_of_le_length hfits] at hd
      rw [if_pos hc, List.append_cancel_right hd]
    · rename_i hc
      rw [if_neg hc, skipPast_of_append hmark h]

end SqlSnapshot.Token
