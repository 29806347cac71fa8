import SqlSnapshot.Proofs.Token.Numbers

/-!
# What a lexeme reads behind its end

The lexer looks at the characters behind a lexeme to know that it ends.  A lexeme that is read off
`cs ++ post` and leaves `rest ++ post` over is also read off `cs ++ tail`, and leaves
`rest ++ tail` over, if `tail` opens a comment: no lexeme goes on with a comment's first character
but those that `absorbs` names.  `lexeme_replace` says so of every lexeme; before it stand the
same statements on the parts of lexemes.
-/

namespace SqlSnapshot.Token

variable {post tail : List Char}

/-- A choice that is made on the same grounds has the same result if both its branches do. -/
theorem ite_replace {α : Type} {p q : Prop} [Decidable p] [Decidable q] {a b a' b' x y : α}
    (hpq : q ↔ p) (ha : p → a = x → a' = y) (hb : ¬ p → b = x → b' = y)
    (h : (if p then a else b) = x) : (if q then a' else b') = y := by
  by_cases hp : p
  · rw [if_pos hp] at h
    rw [if_pos (hpq.2 hp), ha hp h]
  · rw [if_neg hp] at h
    rw [if_neg (hp ∘ hpq.1), hb hp h]

/-! ## Literals and marked names -/

theorem readString_replace (h : StartsComment tail) {cs rest : List Char} {l : Lexeme}
    (hr : readString (cs ++ post) = .ok (l, rest ++ post)) :
    readString (cs ++ tail) = .ok (l, rest ++ tail) := by
  unfold readString at hr ⊢
  split at hr
  · rename_i text r hd
    obtain ⟨rfl, rfl⟩ : .symbol (.str (String.ofList text)) = l ∧ r = rest ++ post := by
      simpa using hr
    have := readDelimited_append (h.head?_ne (c := '\x27') (by decide) (by decide))
      (readDelimited_of_append hd)
    rw [this]
  · cases hr

theorem readQuotedName_replace (h : StartsComment tail) {opening close : Char}
    (hline : close ≠ '-') (hblock : close ≠ '/') {cs rest : List Char} {l : Lexeme}
    (hr : readQuotedName opening close (cs ++ post) = .ok (l, rest ++ post)) :
    readQuotedName opening close (cs ++ tail) = .ok (l, rest ++ tail) := by
  unfold readQuotedName at hr ⊢
  split at hr
  · rename_i text r hd
    obtain ⟨rfl, rfl⟩ : .word (String.ofList text) true = l ∧ r = rest ++ post := by
      simpa using hr
    have := readDelimited_append (h.head?_ne hline hblock) (readDelimited_of_append hd)
    rw [this]
  · cases hr

theorem readMarked_of_head? {c : Char} {cs : List Char} (h : cs.head? ≠ some '\x27') :
    readMarked c cs = .ok (readName [c] cs) := by
  unfold readMarked
  split
  · simp at h
  · rfl

theorem readMarked_replace (h : StartsComment tail) {c : Char} {cs rest : List Char} {l : Lexeme}
    (hr : readMarked c (cs ++ post) = .ok (l, rest ++ post)) :
    readMarked c (cs ++ tail) = .ok (l, rest ++ tail) := by
  by_cases hquote : (cs ++ post).head? = some '\x27'
  · rcases cs with _ | ⟨d, cs⟩
    · obtain ⟨ds, rfl⟩ : ∃ ds, post = '\x27' :: ds := by
        rcases post with _ | ⟨d, ds⟩ <;> simp_all
      have hlong : ¬ (rest ++ '\x27' :: ds).length ≤ ds.length := not_length_le_tail rest rfl
      refine absurd ?_ hlong
      simp only [readMarked, List.nil_append] at hr
      split at hr
      · exact (isSuffix_readString hr).length_le
      · split at hr
        · rename_i hs
          rw [← (Prod.mk.inj (Except.ok.inj hr)).2]
          exact Nat.le_of_lt (length_skipHexText hs)
        · cases hr
    · obtain rfl : d = '\x27' := by simpa using hquote
      simp only [List.cons_append, readMarked] at hr ⊢
      split at hr
      · rename_i hc
        rw [if_pos hc, readString_replace h hr]
      · rename_i hc
        rw [if_neg hc]
        split at hr
        · rename_i r hs
          obtain ⟨rfl, rfl⟩ : .symbol (.other "X''") = l ∧ r = rest ++ post := by simpa using hr
          rw [skipHexText_append (h.head?_ne (by decide) (by decide)) (skipHexText_of_append hs)]
        · cases hr
  · have htail : (cs ++ tail).head? ≠ some '\x27' := by
      rcases cs with _ | ⟨d, cs⟩
      · exact h.head?_ne (by decide) (by decide)
      · simpa using hquote
    rw [readMarked_of_head? hquote] at hr
    rw [readMarked_of_head? htail, readName_replace h (Except.ok.inj hr)]

def isTagPart (c : Char) : Bool :=
  Text.isAlphanumeric c || c == '_'

/-- A literal up to the closing `mark`: the text after the opening one. -/
def readMarkedText (mark : List Char) (fault : LexFault) (cs : List Char) :
    Except LexFailure (Lexeme × List Char) :=
  match skipPast mark cs with
  | some rest => .ok (.symbol (.other "$$"), rest)
  | none => .error ⟨fault, []⟩

theorem readMarkedText_eq_ok {mark cs rest : List Char} {fault : LexFault} {l : Lexeme} :
    readMarkedText mark fault cs = .ok (l, rest) ↔
      .symbol (.other "$$") = l ∧ skipPast mark cs = some rest := by
  unfold readMarkedText
  split <;> simp [*]

theorem readDollar_dollar (cs : List Char) :
    readDollar ('$' :: cs) = readMarkedText ['$', '$'] .unterminatedDollarString cs := rfl

theorem readDollar_of_head? {cs : List Char} (h : cs.head? ≠ some '$') :
    readDollar cs =
      if (cs.dropWhile isTagPart).head? = some '$' then
        readMarkedText ('$' :: (cs.takeWhile isTagPart ++ ['$'])) .unterminatedTaggedString
          (cs.dropWhile isTagPart).tail
      else .ok (.placeholder (String.ofList ('$' :: cs.takeWhile isTagPart)),
        cs.dropWhile isTagPart) := by
  have hdef : (fun c => Text.isAlphanumeric c || c == '_') = isTagPart := rfl
  unfold readDollar
  split
  · simp at h
  · simp only [hdef]
    split
    · simp only [*, List.head?_cons, if_true, List.tail_cons]
      rfl
    · rename_i hd
      rw [if_neg]
      intro hc
      rcases hcs : cs.dropWhile isTagPart with _ | ⟨c, r⟩
      · simp [hcs] at hc
      · exact hd r (by simp_all)

theorem readDollar_replace (h : StartsComment tail) {cs rest : List Char} {l : Lexeme}
    (hr : readDollar (cs ++ post) = .ok (l, rest ++ post)) :
    readDollar (cs ++ tail) = .ok (l, rest ++ tail) := by
  have hpost : ∀ {mark : List Char}, post.head? = some '$' →
      skipPast mark post.tail ≠ some (rest ++ post) :=
    fun hd hs => not_length_le_tail rest hd (length_skipPast hs)
  by_cases hdollar : (cs ++ post).head? = some '$'
  · rcases cs with _ | ⟨d, cs⟩
    · obtain ⟨ds, rfl⟩ : ∃ ds, post = '$' :: ds := by
        rcases post with _ | ⟨d, ds⟩ <;> simp_all
      rw [List.nil_append, readDollar_dollar, readMarkedText_eq_ok] at hr
      exact absurd hr.2 (hpost rfl)
    · obtain rfl : d = '$' := by simpa using hdollar
      rw [List.cons_append, readDollar_dollar, readMarkedText_eq_ok] at hr ⊢
      exact ⟨hr.1, skipPast_append (by simp) (skipPast_of_append (by simp) hr.2)⟩
  · have htail : (cs ++ tail).head? ≠ some '$' := by
      rcases cs with _ | ⟨d, cs⟩
      · exact h.head?_ne (by decide) (by decide)
      · simpa using hdollar
    rw [readDollar_of_head? hdollar] at hr
    rw [readDollar_of_head? htail]
    have hlen : post.length ≤ ((cs ++ post).dropWhile isTagPart).length := by
      split at hr
      · have := length_skipPast (readMarkedText_eq_ok.1 hr).2
        simp at this
        omega
      · rw [(Prod.mk.inj (Except.ok.inj hr)).2]
        simp
    have hminus : isTagPart '-' = false := rfl
    have hslash : isTagPart '/' = false := rfl
    obtain ⟨r, htag⟩ := exists_append_of_suffix (List.dropWhile_suffix isTagPart) hlen
    obtain ⟨h1, h2⟩ := span_replace (h.stops hminus hslash) htag
    rw [htag] at hr
    rw [h1, h2]
    rcases r with _ | ⟨c, r⟩
    · rw [List.nil_append] at hr ⊢
      rw [if_neg (h.head?_ne (by decide) (by decide))]
      split at hr
      · rename_i hd
        exact absurd (readMarkedText_eq_ok.1 hr).2 (hpost hd)
      · simpa using hr
    · simp only [List.cons_append, List.head?_cons, List.tail_cons, Option.some.injEq] at hr ⊢
      split at hr
      · rename_i hd
        rw [if_pos hd]
        obtain ⟨hl, hs⟩ := readMarkedText_eq_ok.1 hr
        exact readMarkedText_eq_ok.2
          ⟨hl, skipPast_append (by simp) (skipPast_of_append (by simp) hs)⟩
      · rename_i hd
        obtain ⟨hl, hrest⟩ := Prod.mk.inj (Except.ok.inj hr)
        have : c :: r = rest := List.append_cancel_right (show c :: r ++ post = _ from hrest)
        rw [if_neg hd, hl, ← this]
        rfl

/-! ## Signs -/

theorem readAt_replace (h : StartsComment tail) {cs rest : List Char} {l : Lexeme}
    (hone : cs ≠ []) (htwo : cs ≠ ['@'])
    (hr : readAt (cs ++ post) = (l, rest ++ post)) :
    readAt (cs ++ tail) = (l, rest ++ tail) := by
  rcases cs with _ | ⟨c, cs⟩
  · exact absurd rfl hone
  simp only [List.cons_append] at hr ⊢
  by_cases hgt : c = '>'
  · subst hgt
    exact kept_replace hr
  by_cases hq : c = '?'
  · subst hq
    exact kept_replace hr
  by_cases hat : c = '@'
  · subst hat
    rcases cs with _ | ⟨d, ds⟩
    · exact absurd rfl htwo
    simp only [List.cons_append, readAt] at hr ⊢
    split_ifs at hr ⊢
    · exact kept_replace (show (_, d :: ds ++ post) = _ from hr)
    · exact readName_replace h hr
  · have hother : ∀ ds, readAt (c :: ds) =
        if c = ' ' ∨ c = '\x27' ∨ c = '\x22' ∨ c = '\x60' then (.symbol (.other "@"), c :: ds)
        else readName ['@', c] ds := by
      intro ds
      unfold readAt
      split <;> simp_all
    rw [hother] at hr ⊢
    split_ifs at hr ⊢
    · exact kept_replace (show (_, c :: cs ++ post) = _ from hr)
    · exact readName_replace h hr

theorem readSharp_replace (h : StartsComment tail) {cs rest : List Char} {l : Lexeme}
    (hone : cs ≠ []) (hr : readSharp (cs ++ post) = (l, rest ++ post)) :
    readSharp (cs ++ tail) = (l, rest ++ tail) := by
  rcases cs with _ | ⟨c, cs⟩
  · exact absurd rfl hone
  simp only [List.cons_append] at hr ⊢
  by_cases hminus : c = '-'
  · subst hminus
    exact kept_replace hr
  by_cases hgt : c = '>'
  · subst hgt
    have hshift : ∀ ds, readSharp ('>' :: ds) = if ds.head? = some '>' then
        (.symbol (.other "#>>"), ds.tail) else (.symbol (.other "#>"), ds) := by
      intro ds
      rcases ds with _ | ⟨d, ds⟩
      · rfl
      by_cases hd : d = '>'
      · subst hd
        rfl
      · simp [readSharp, hd]
    rw [hshift] at hr ⊢
    rcases cs with _ | ⟨d, ds⟩
    · simp only [List.nil_append] at hr ⊢
      rw [if_neg (h.head?_ne (by decide) (by decide))]
      split_ifs at hr with hd
      · exact absurd (congrArg (·.2.length) hr).ge (not_length_le_tail rest hd)
      · exact kept_replace (show (_, [] ++ post) = _ from hr)
    · simp only [List.cons_append, List.head?_cons, List.tail_cons, Option.some.injEq] at hr ⊢
      split_ifs at hr ⊢
      · exact kept_replace hr
      · exact kept_replace (show (_, d :: ds ++ post) = _ from hr)
  · have hother : ∀ ds, readSharp (c :: ds) =
        if c = ' ' then (.symbol (.other "#"), c :: ds) else readName ['#', c] ds := by
      intro ds
      unfold readSharp
      split <;> simp_all
    rw [hother] at hr ⊢
    split_ifs at hr ⊢
    · exact kept_replace (show (_, c :: cs ++ post) = _ from hr)
    · exact readName_replace h hr

/-- The lexeme `piece` takes the first character of a comment that stands right behind it: a line
comment that its line does not end, or a sign that begins a longer one with that character. -/
def absorbs (piece comment : List Char) : Bool :=
  (['-', '-'].isPrefixOf piece && !piece.contains '\n') ||
    (["@", "@@", "#"] ++ if comment.head? = some '-' then ["-"] else ["|", "||"]).contains
      (String.ofList piece)

theorem not_prefix_of_readOperator {c : Char} {cs : List Char}
    (hlen : cs.length ≤ (readOperator c cs).2.length) :
    ∀ op ∈ operators, ¬ op.1.toList <+: c :: cs := by
  have hlong : ∀ op ∈ operators, 2 ≤ op.1.toList.length := by decide
  unfold readOperator at hlen
  split at hlen
  · rename_i op hop
    have := hlong op (List.mem_of_find?_eq_some hop)
    have hpre := List.find?_some hop
    have := (List.isPrefixOf_iff_prefix.1 hpre).length_le
    simp only [List.length_drop, List.length_cons] at *
    omega
  · rename_i hnone
    intro op hop hpre
    exact List.find?_eq_none.1 hnone op hop (List.isPrefixOf_iff_prefix.2 hpre)

/-- Only the operators `|/` and `||/` go on with a character that opens a comment. -/
theorem length_operator_le (h : StartsComment tail) {c : Char} {cs rest : List Char} {l : Lexeme}
    (habs : rest = [] → absorbs (c :: cs) tail = false)
    (hr : readOperator c (cs ++ post) = (l, rest ++ post)) {op : String × String}
    (hop : op ∈ operators) (hpre : op.1.toList <+: (c :: cs) ++ tail) :
    op.1.toList.length ≤ (c :: cs).length := by
  have hminus : ∀ op ∈ operators, '-' ∉ op.1.toList.tail := by decide
  have hslash : ∀ op ∈ operators, '/' ∈ op.1.toList.tail →
      op.1.toList = ['|', '/'] ∨ op.1.toList = ['|', '|', '/'] := by decide
  by_contra hlen
  obtain ⟨s, hs⟩ := List.prefix_of_prefix_length_le (List.prefix_append (c :: cs) tail) hpre
    (by omega)
  rw [← hs, List.prefix_append_right_inj] at hpre
  rcases s with _ | ⟨d, ds⟩
  · simp [← hs] at hlen
  have hd : d ∈ op.1.toList.tail := by simp [← hs]
  cases h with
  | line =>
    obtain rfl : d = '-' := (List.cons_prefix_cons.1 hpre).1
    exact hminus op hop hd
  | block =>
    obtain rfl : d = '/' := (List.cons_prefix_cons.1 hpre).1
    have hle := (isSuffix_readOperator c (cs ++ post)).length_le
    rw [hr] at hle
    simp only [List.length_append] at hle
    rcases hslash op hop hd with hbar | hbar
    · obtain ⟨rfl, rfl⟩ : c = '|' ∧ cs = [] := by
        rw [hbar] at hs
        rcases cs with _ | ⟨e, es⟩ <;> simp_all
      have := habs (List.length_eq_zero_iff.1 (by simp only [List.length_nil] at hle; omega))
      simp [absorbs] at this
    · obtain ⟨rfl, rfl⟩ : c = '|' ∧ cs = ['|'] := by
        rw [hbar] at hs
        rcases cs with _ | ⟨e, _ | ⟨f, fs⟩⟩ <;> simp_all
      have := habs (by
        by_contra hrest
        have hpos := List.length_pos_iff.2 hrest
        refine not_prefix_of_readOperator ?_ ("||", "||") (by decide)
          (List.prefix_append ['|', '|'] post)
        change (['|'] ++ post).length ≤ (readOperator '|' (['|'] ++ post)).2.length
        rw [hr]
        simp
        omega)
      simp [absorbs] at this

theorem readOperator_replace (h : StartsComment tail) {c : Char} {cs rest : List Char} {l : Lexeme}
    (habs : rest = [] → absorbs (c :: cs) tail = false)
    (hr : readOperator c (cs ++ post) = (l, rest ++ post)) :
    readOperator c (cs ++ tail) = (l, rest ++ tail) := by
  have hback : ∀ op ∈ operators, op.1.toList.isPrefixOf (c :: (cs ++ tail)) →
      op.1.toList.isPrefixOf (c :: (cs ++ post)) := by
    intro op hop hpre
    have hlen := length_operator_le h habs hr hop (List.isPrefixOf_iff_prefix.1 hpre)
    rw [← List.cons_append, isPrefixOf_append hlen] at hpre ⊢
    exact hpre
  unfold readOperator at hr ⊢
  split at hr
  · rename_i op hfind
    obtain ⟨hop, as, bs, hsplit, hbefore⟩ := List.find?_eq_some_iff_append.1 hfind
    have hlen : op.1.toList.length ≤ (c :: cs).length := by
      have hle := (List.isPrefixOf_iff_prefix.1 hop).length_le
      have := congrArg (·.2.length) hr
      simp at *
      omega
    have hnew :
        operators.find? (fun op => op.1.toList.isPrefixOf (c :: (cs ++ tail))) = some op := by
      refine List.find?_eq_some_iff_append.2 ⟨?_, as, bs, hsplit, ?_⟩
      · rw [← List.cons_append, isPrefixOf_append hlen] at hop ⊢
        exact hop
      · intro a ha
        have hmem : a ∈ operators := hsplit ▸ List.mem_append_left _ ha
        have := hbefore a ha
        simp only [Bool.not_eq_true'] at this ⊢
        rw [Bool.eq_false_iff] at this ⊢
        exact fun hc => this (hback a hmem hc)
    rw [hnew]
    dsimp only
    obtain ⟨rfl, hd⟩ := Prod.mk.inj hr
    have hdrop : op.1.toList.length - 1 ≤ cs.length := by simpa using Nat.sub_le_of_le_add hlen
    rw [List.drop_append_of_le_length hdrop] at hd ⊢
    rw [List.append_cancel_right hd]
  · rename_i hnone
    have hnew : operators.find? (fun op => op.1.toList.isPrefixOf (c :: (cs ++ tail))) = none := by
      rw [List.find?_eq_none] at hnone ⊢
      exact fun op hop hc => hnone op hop (hback op hop hc)
    rw [hnew]
    obtain ⟨rfl, hd⟩ := Prod.mk.inj hr
    rw [List.append_cancel_right hd]

/-- An equals sign that stands alone is not followed by a sign that makes an operator of it. -/
theorem head?_of_readPlain_equals {cs : List Char}
    (hlen : cs.length ≤ (readPlain '=' cs).2.length) :
    cs.head? ≠ some '=' ∧ cs.head? ≠ some '>' := by
  have hletter : Text.isLetter '=' = false := rfl
  have hblank : Text.isBlank '=' = false := by decide
  by_contra hnot
  have hplain : readPlain '=' cs = readOperator '=' cs := by
    simp [readPlain, hletter, hblank, show ¬ (cs.head? ≠ some '=' ∧ cs.head? ≠ some '>') from hnot]
  rw [hplain] at hlen
  have hop := not_prefix_of_readOperator hlen
  rcases cs with _ | ⟨d, ds⟩
  · simp at hnot
  by_cases hd : d = '='
  · subst hd
    exact hop ("==", "==") (by decide) (List.prefix_append ['=', '='] ds)
  · obtain rfl : d = '>' := by simpa [hd] using hnot
    exact hop ("=>", "=>") (by decide) (List.prefix_append ['=', '>'] ds)

theorem readPlain_replace (h : StartsComment tail) {c : Char} {cs rest : List Char} {l : Lexeme}
    (habs : rest = [] → absorbs (c :: cs) tail = false)
    (hr : readPlain c (cs ++ post) = (l, rest ++ post)) :
    readPlain c (cs ++ tail) = (l, rest ++ tail) := by
  have hequals : (c = '=' ∧ (cs ++ tail).head? ≠ some '=' ∧ (cs ++ tail).head? ≠ some '>') ↔
      (c = '=' ∧ (cs ++ post).head? ≠ some '=' ∧ (cs ++ post).head? ≠ some '>') := by
    rcases cs with _ | ⟨d, ds⟩
    · have h1 := h.head?_ne (c := '=') (by decide) (by decide)
      have h2 := h.head?_ne (c := '>') (by decide) (by decide)
      simp only [List.nil_append, ne_eq, h1, h2, not_false_eq_true, and_true, iff_self_and]
      rintro rfl
      refine head?_of_readPlain_equals ?_
      rw [← List.nil_append post, hr]
      simp
    · simp
  unfold readPlain at hr ⊢
  refine ite_replace .rfl (fun _ => kept_replace) (fun _ => ?_) hr
  refine ite_replace .rfl (fun _ => kept_replace) (fun _ => ?_)
  refine ite_replace .rfl (fun _ => kept_replace) (fun _ => ?_)
  refine ite_replace .rfl (fun _ => kept_replace) (fun _ => ?_)
  refine ite_replace .rfl (fun _ => kept_replace) (fun _ => ?_)
  refine ite_replace hequals (fun _ => kept_replace) (fun _ => ?_)
  refine ite_replace .rfl (fun _ => readName_replace h) (fun _ => ?_)
  exact ite_replace .rfl (fun _ => kept_replace) (fun _ => readOperator_replace h habs)

/-! ## Lexemes -/

theorem skipLine_replace {cs rest : List Char} (hend : rest = [] → '\n' ∈ cs)
    (hr : skipLine (cs ++ post) = rest ++ post) : skipLine (cs ++ tail) = rest ++ tail := by
  unfold skipLine at hr ⊢
  rw [List.dropWhile_append] at hr ⊢
  rcases hd : cs.dropWhile (· != '\n') with _ | ⟨c, r⟩
  · rw [hd] at hr
    have hrest : rest = [] := by
      have hlen := congrArg List.length hr
      have := length_dropWhile_le (· != '\n') post
      simp only [List.isEmpty_nil, if_true, List.length_drop, List.length_append] at hlen
      exact List.length_eq_zero_iff.1 (by omega)
    have := List.dropWhile_eq_nil_iff.1 hd '\n' (hend hrest)
    simp at this
  · rw [hd] at hr
    have : r = rest := List.append_cancel_right (show r ++ post = _ from by simpa using hr)
    simp [this]

theorem readPeriod_replace (h : StartsComment tail) {afterName : Bool} {cs rest : List Char}
    {l : Lexeme} (hr : readUnquoted afterName '.' (cs ++ post) = .ok (l, rest ++ post)) :
    readUnquoted afterName '.' (cs ++ tail) = .ok (l, rest ++ tail) := by
  have hread : ∀ ds, readUnquoted afterName '.' ds =
      if ds.head? = some '_' then
        if afterName then .ok (.symbol .period, ds) else .error ⟨.unexpectedUnderscore, '.' :: ds⟩
      else .ok (readNumber ('.' :: ds)) := by
    intro ds
    simp [readUnquoted]
  rw [hread] at hr ⊢
  rcases cs with _ | ⟨d, ds⟩
  · rw [List.nil_append] at hr ⊢
    rw [if_neg (h.head?_ne (by decide) (by decide))]
    split_ifs at hr with hunder hname
    · obtain ⟨rfl, hrest⟩ := Prod.mk.inj (Except.ok.inj hr)
      obtain rfl : rest = [] := by simpa using hrest
      cases h <;> simp [readNumber, finishNumber, Text.isDigit]
    · exact congrArg _ (readNumber_replace h
        (show readNumber (['.'] ++ post) = _ from Except.ok.inj hr))
  · simp only [List.cons_append, List.head?_cons, Option.some.injEq] at hr ⊢
    split_ifs at hr ⊢
    · exact congrArg _ (kept_replace (show (_, d :: ds ++ post) = _ from Except.ok.inj hr))
    · exact congrArg _ (readNumber_replace h
        (show readNumber ('.' :: d :: ds ++ post) = _ from Except.ok.inj hr))

theorem readMinus_replace (h : StartsComment tail) {afterName : Bool} {cs rest : List Char}
    {l : Lexeme} (habs : rest = [] → absorbs ('-' :: cs) tail = false)
    (hr : readUnquoted afterName '-' (cs ++ post) = .ok (l, rest ++ post)) :
    readUnquoted afterName '-' (cs ++ tail) = .ok (l, rest ++ tail) := by
  have hread : ∀ ds, readUnquoted afterName '-' ds =
      .ok (if ds.head? = some '-' then (.trivia, skipLine ds) else readPlain '-' ds) := by
    intro ds
    have hdigit : Text.isDigit '-' = false := by decide
    by_cases hd : ds.head? = some '-' <;> simp [readUnquoted, hdigit, hd]
  have hlen := (isSuffix_readUnquoted hr).length_le
  rw [hread, Except.ok.injEq] at hr ⊢
  rcases cs with _ | ⟨d, ds⟩
  · have hrest : rest = [] := eq_nil_of_length_le hlen
    have htail : tail.head? ≠ some '-' := by
      have := habs hrest
      cases h <;> simp_all [absorbs]
    rw [List.nil_append] at hr ⊢
    rw [if_neg htail]
    split_ifs at hr with hd
    · refine absurd ?_ (not_length_le_tail rest hd)
      obtain ⟨ds, rfl⟩ := List.head?_eq_some_iff.1 hd
      rw [← (Prod.mk.inj hr).2]
      have hskip : skipLine ('-' :: ds) = (ds.dropWhile (· != '\n')).drop 1 := rfl
      rw [hskip]
      exact ((List.drop_suffix 1 _).trans (List.dropWhile_suffix _)).length_le
    · exact readPlain_replace h habs (show readPlain '-' ([] ++ post) = _ from hr)
  · simp only [List.cons_append, List.head?_cons, Option.some.injEq] at hr ⊢
    split_ifs at hr ⊢ with hd
    · subst hd
      obtain ⟨rfl, hskip⟩ := Prod.mk.inj hr
      have hend : rest = [] → '\n' ∈ '-' :: ds := by
        intro hrest
        have := habs hrest
        simp_all [absorbs]
      rw [show '-' :: (ds ++ tail) = ('-' :: ds) ++ tail from rfl, skipLine_replace hend hskip]
    · exact readPlain_replace h habs (show readPlain '-' (d :: ds ++ post) = _ from hr)

theorem readSlash_replace (h : StartsComment tail) {afterName : Bool} {cs rest : List Char}
    {l : Lexeme} (habs : rest = [] → absorbs ('/' :: cs) tail = false)
    (hr : readUnquoted afterName '/' (cs ++ post) = .ok (l, rest ++ post)) :
    readUnquoted afterName '/' (cs ++ tail) = .ok (l, rest ++ tail) := by
  have hread : ∀ ds, readUnquoted afterName '/' ds =
      if ds.head? = some '*' then
        match skipComment 0 ds.tail with
        | some rest => .ok (.trivia, rest)
        | none => .error ⟨.unclosedComment, []⟩
      else .ok (readPlain '/' ds) := by
    intro ds
    have hdigit : Text.isDigit '/' = false := by decide
    have hminus : ¬ ('/' = '-' ∧ ds.head? = some '-') := by simp
    rw [readUnquoted, if_neg (by simp), if_neg (by simp [hdigit]), if_neg hminus]
    by_cases hd : ds.head? = some '*'
    · exact (if_pos ⟨rfl, hd⟩).trans (if_pos hd).symm
    · exact (if_neg (by simp [hd])).trans (if_neg hd).symm
  rw [hread] at hr ⊢
  rcases cs with _ | ⟨d, ds⟩
  · rw [List.nil_append] at hr ⊢
    rw [if_neg (h.head?_ne (by decide) (by decide))]
    split_ifs at hr with hd
    · split at hr
      · rename_i r hs
        obtain ⟨-, rfl⟩ := Prod.mk.inj (Except.ok.inj hr)
        exact absurd (Nat.le_of_lt (length_skipComment hs)) (not_length_le_tail _ hd)
      · cases hr
    · exact congrArg _ (readPlain_replace h habs
        (show readPlain '/' ([] ++ post) = _ from Except.ok.inj hr))
  · simp only [List.cons_append, List.head?_cons, Option.some.injEq, List.tail_cons] at hr ⊢
    split_ifs at hr ⊢
    · split at hr
      · rename_i r hs
        obtain ⟨rfl, rfl⟩ := Prod.mk.inj (Except.ok.inj hr)
        rw [skipComment_append (skipComment_of_append hs)]
      · cases hr
    · exact congrArg _ (readPlain_replace h habs
        (show readPlain '/' (d :: ds ++ post) = _ from Except.ok.inj hr))

theorem length_readAt_at (cs : List Char) : (readAt ('@' :: cs)).2.length ≤ cs.length := by
  rcases cs with _ | ⟨c, cs⟩
  · simp [readAt]
  · have := length_dropWhile_le isNamePart cs
    simp only [readAt, readName]
    split_ifs
    · simp
    · simp
      omega

theorem readUnquoted_replace (h : StartsComment tail) {afterName : Bool} {c : Char}
    {cs rest : List Char} {l : Lexeme} (habs : rest = [] → absorbs (c :: cs) tail = false)
    (hr : readUnquoted afterName c (cs ++ post) = .ok (l, rest ++ post)) :
    readUnquoted afterName c (cs ++ tail) = .ok (l, rest ++ tail) := by
  by_cases hpoint : c = '.'
  · subst hpoint
    exact readPeriod_replace h hr
  by_cases hminus : c = '-'
  · subst hminus
    exact readMinus_replace h habs hr
  by_cases hslash : c = '/'
  · subst hslash
    exact readSlash_replace h habs hr
  simp only [readUnquoted, hpoint, hminus, hslash, false_and, if_false, or_false] at hr ⊢
  refine ite_replace .rfl (fun _ hnumber => ?_) (fun _ => ?_) hr
  · exact congrArg _ (readNumber_replace h
      (show readNumber (c :: cs ++ post) = _ from Except.ok.inj hnumber))
  refine ite_replace .rfl (fun _ => readDollar_replace h) (fun _ => ?_)
  refine ite_replace .rfl (fun _ hplace => ?_) (fun _ => ?_)
  · have hminus : Text.isNumeral '-' = false := rfl
    have hslash : Text.isNumeral '/' = false := rfl
    obtain ⟨rfl, hd⟩ := Prod.mk.inj (Except.ok.inj hplace)
    obtain ⟨h1, h2⟩ := span_replace (h.stops hminus hslash) hd
    rw [h1, h2]
  refine ite_replace .rfl (fun hat hsign => ?_) (fun _ => ?_)
  · subst hat
    have hread := Except.ok.inj hsign
    refine congrArg _ (readAt_replace h ?_ ?_ hread)
    · rintro rfl
      have hlen := (isSuffix_readAt post).length_le
      rw [← List.nil_append post, hread] at hlen
      simpa [absorbs] using habs (eq_nil_of_length_le hlen)
    · rintro rfl
      have hlen := length_readAt_at post
      rw [← List.singleton_append, hread] at hlen
      simpa [absorbs] using habs (eq_nil_of_length_le hlen)
  refine ite_replace .rfl (fun hsharp hsign => ?_) (fun _ hplain => ?_)
  · subst hsharp
    have hread := Except.ok.inj hsign
    refine congrArg _ (readSharp_replace h ?_ hread)
    rintro rfl
    have hlen := (isSuffix_readSharp post).length_le
    rw [← List.nil_append post, hread] at hlen
    simpa [absorbs] using habs (eq_nil_of_length_le hlen)
  · exact congrArg _ (readPlain_replace h habs (Except.ok.inj hplain))

theorem lexeme_replace (h : StartsComment tail) {afterName : Bool} {c : Char}
    {cs rest : List Char} {l : Lexeme} (habs : rest = [] → absorbs (c :: cs) tail = false)
    (hr : lexeme afterName c (cs ++ post) = .ok (l, rest ++ post)) :
    lexeme afterName c (cs ++ tail) = .ok (l, rest ++ tail) := by
  unfold lexeme at hr ⊢
  refine ite_replace .rfl (fun _ hspace => congrArg _ (kept_replace (Except.ok.inj hspace)))
    (fun _ => ?_) hr
  refine ite_replace .rfl (fun _ => readMarked_replace h) (fun _ => ?_)
  refine ite_replace .rfl (fun _ => readString_replace h) (fun _ => ?_)
  refine ite_replace .rfl (fun hdouble => ?_) (fun _ => ?_)
  · subst hdouble
    exact readQuotedName_replace h (by decide) (by decide)
  exact ite_replace .rfl (fun _ => readQuotedName_replace h (by decide) (by decide))
    (fun _ => readUnquoted_replace h habs)

end SqlSnapshot.Token
