import Mathlib.Data.List.Basic
import SqlSnapshot.Token.Parens

/-!
# Scans over parts of a list

The scans go on from one part of a list to the next: what a scan does after a part depends on the
parentheses that the part leaves open.  A balanced part leaves none open, and a scan that looks at
nothing inside parentheses passes a balanced group as a whole.
-/

namespace SqlSnapshot.Token

/-! ## Keywords -/

variable {t : Token} {keywords others : List String}

theorem isAnyKw_eq_false_of_disjoint
    (h : t.isAnyKw keywords = true) (hdisjoint : ∀ k ∈ keywords, k ∉ others) :
    t.isAnyKw others = false := by
  unfold isAnyKw at h ⊢
  split at h
  · have hmem := hdisjoint _ (List.contains_iff_mem.mp h)
    simpa using hmem
  · cases h

theorem isAnyKw_eq_false_of_subset
    (h : t.isAnyKw others = false) (hsubset : ∀ k ∈ keywords, k ∈ others) :
    t.isAnyKw keywords = false := by
  unfold isAnyKw at h ⊢
  split
  · rename_i text
    have hnot : Text.asciiUpper text ∉ others := by simpa using h
    simpa using fun hmem => hnot (hsubset _ hmem)
  · rfl

theorem isAnyKw_of_subset
    (h : t.isAnyKw keywords = true) (hsubset : ∀ k ∈ keywords, k ∈ others) :
    t.isAnyKw others = true := by
  by_contra hnot
  rw [isAnyKw_eq_false_of_subset (eq_false_of_ne_true hnot) hsubset] at h
  cases h

theorem startsWithAnyKw_eq_false_of_subset
    (h : startsWithAnyKw others ts = false) (hsubset : ∀ k ∈ keywords, k ∈ others) :
    startsWithAnyKw keywords ts = false := by
  cases ts with
  | nil => rfl
  | cons t ts => exact isAnyKw_eq_false_of_subset h hsubset

theorem isAnyKw_eq_false_of_isVariable
    (h : t.isVariable = true) (hkeywords : ∀ keyword ∈ keywords, keyword.toList.head? ≠ some '@') :
    t.isAnyKw keywords = false := by
  unfold isVariable at h
  split at h
  · rename_i text
    have hupper : (Text.asciiUpper text).toList.head? = some '@' := by
      rw [Text.asciiUpper, String.toList_ofList, List.head?_map, eq_of_beq h]
      decide
    have hnot : Text.asciiUpper text ∉ keywords := fun hmem => hkeywords _ hmem hupper
    simpa [isAnyKw] using hnot
  · cases h

theorem isWord_of_isAnyKw (h : t.isAnyKw keywords = true) : t.isWord = true := by
  cases t <;> simp_all [isAnyKw, isWord]

theorem exists_word (h : t.isWord = true) : ∃ text quoted, t = .word text quoted := by
  cases t with
  | word text quoted => exact ⟨text, quoted, rfl⟩
  | _ => cases h

theorem ne_of_isAnyKw {u : Token} (h : t.isAnyKw keywords = true) (hu : u.isWord = false) :
    t ≠ u := by
  rintro rfl
  rw [isWord_of_isAnyKw h] at hu
  cases hu

theorem isAnyKw_cons (t : Token) (keyword : String) (keywords : List String) :
    t.isAnyKw (keyword :: keywords) = (t.isKw keyword || t.isAnyKw keywords) := by
  unfold isKw isAnyKw
  split <;> simp

/-! ## Open parentheses -/

variable {depth : Nat} {ts us inner rest : List Token}

/-- The number of parentheses that are open after the list, with `depth` open before it. -/
def depthAfterAll (depth : Nat) (ts : List Token) : Nat :=
  ts.foldl depthAfter depth

@[simp]
theorem depthAfterAll_nil (depth : Nat) : depthAfterAll depth [] = depth := rfl

@[simp]
theorem depthAfterAll_cons (depth : Nat) (t : Token) (ts : List Token) :
    depthAfterAll depth (t :: ts) = depthAfterAll (depthAfter depth t) ts := rfl

theorem depthAfter_of_isAnyKw (h : t.isAnyKw keywords = true) (depth : Nat) :
    depthAfter depth t = depth := by
  cases t <;> simp_all [isAnyKw, depthAfter]

theorem depthAfter_mono {d e : Nat} (h : d ≤ e) (t : Token) : depthAfter d t ≤ depthAfter e t := by
  cases t <;> simp only [depthAfter] <;> omega

theorem depthAfterAll_mono {d e : Nat} (h : d ≤ e) (ts : List Token) :
    depthAfterAll d ts ≤ depthAfterAll e ts := by
  induction ts generalizing d e with
  | nil => exact h
  | cons t ts ih => exact ih (depthAfter_mono h t)

theorem balancedFrom_tail (h : balancedFrom depth (t :: ts) = true) :
    balancedFrom (depthAfter depth t) ts = true := by
  cases t <;> simp_all [balancedFrom, depthAfter]

theorem eq_zero_of_balancedFrom_nil (h : balancedFrom depth [] = true) : depth = 0 := by
  simpa [balancedFrom] using h

/-- A token of a balanced list does not close what is open around the list. -/
theorem depthAfter_add (h : balancedFrom depth (t :: ts) = true) (around : Nat) :
    depthAfter (depth + around) t = depthAfter depth t + around := by
  cases t with
  | rparen =>
    have hopen : depth ≠ 0 := by
      rintro rfl
      cases h
    simp only [depthAfter]
    omega
  | lparen => exact Nat.add_right_comm depth around 1
  | _ => rfl

theorem depthAfterAll_add (h : balancedFrom depth ts = true) (around : Nat) :
    depthAfterAll (depth + around) ts = around := by
  induction ts generalizing depth with
  | nil =>
    obtain rfl := eq_zero_of_balancedFrom_nil h
    exact Nat.zero_add around
  | cons t ts ih => rw [depthAfterAll_cons, depthAfter_add h, ih (balancedFrom_tail h)]

theorem depthAfterAll_of_balancedFrom (h : balancedFrom depth ts = true) :
    depthAfterAll depth ts = 0 :=
  depthAfterAll_add h 0

/-- No parenthesis of the list is left open at its end. -/
def Closes (ts : List Token) : Prop :=
  depthAfterAll 0 ts = 0

theorem closes_of_isBalanced (h : isBalanced ts = true) : Closes ts :=
  depthAfterAll_of_balancedFrom h

theorem depthAfterAll_append (depth : Nat) (ts us : List Token) :
    depthAfterAll depth (ts ++ us) = depthAfterAll (depthAfterAll depth ts) us :=
  List.foldl_append

theorem Closes.append (hts : Closes ts) (hus : Closes us) : Closes (ts ++ us) := by
  rw [Closes, depthAfterAll_append, hts, hus]

theorem Closes.tail (h : Closes (t :: ts)) : Closes ts :=
  Nat.le_zero.mp (le_of_le_of_eq (depthAfterAll_mono (Nat.zero_le _) ts) h)

theorem Closes.of_suffix (h : Closes ts) (hsuffix : us <:+ ts) : Closes us := by
  obtain ⟨front, rfl⟩ := hsuffix
  induction front with
  | nil => exact h
  | cons t front ih => exact ih h.tail

/-- Parentheses that are open around a balanced list are closed after it. -/
theorem balancedFrom_append
    (h : balancedFrom depth ts = true) (around : Nat) (us : List Token) :
    balancedFrom (depth + around) (ts ++ us) = balancedFrom around us := by
  fun_induction balancedFrom depth ts with
  | case1 depth =>
    obtain rfl : depth = 0 := by simpa using h
    rw [Nat.zero_add]
    rfl
  | case2 depth ts ih =>
    rw [← ih h, List.cons_append, balancedFrom, Nat.add_right_comm]
  | case3 => simp at h
  | case4 depth ts hdepth ih =>
    have hopen : ¬ depth + around = 0 := by omega
    have hclosed : depth + around - 1 = depth - 1 + around := by omega
    rw [← ih h, List.cons_append, balancedFrom, if_neg hopen, hclosed]
  | case5 depth t ts hopen hclose ih =>
    rw [← ih h, List.cons_append, balancedFrom]
    all_goals assumption

theorem isBalanced_append (hts : isBalanced ts = true) (hus : isBalanced us = true) :
    isBalanced (ts ++ us) = true :=
  (balancedFrom_append hts 0 us).trans hus

/-- The list in parentheses. -/
def parens (inner : List Token) : List Token :=
  .lparen :: inner ++ [.rparen]

theorem isBalanced_parens (h : isBalanced inner = true) : isBalanced (parens inner) = true :=
  balancedFrom_append h 1 [.rparen]

/-! ## Groups -/

theorem closeParen?_append_of_eq_some
    (h : closeParen? depth ts = some (inner, rest)) (us : List Token) :
    closeParen? depth (ts ++ us) = some (inner, rest ++ us) := by
  fun_induction closeParen? depth ts generalizing inner rest <;> simp_all [closeParen?] <;> grind

theorem closeParen?_cons (h : depth = 0 → t ≠ .rparen) (ts : List Token) :
    closeParen? depth (t :: ts) =
      (closeParen? (depthAfter depth t) ts).map fun parts => (t :: parts.1, parts.2) := by
  cases t with
  | rparen =>
    cases depth with
    | zero => exact absurd rfl (h rfl)
    | succ depth => rfl
  | _ => rfl

/-- The parenthesis that closes an open one does not stand in a balanced list. -/
theorem closeParen?_append_of_balancedFrom
    (h : balancedFrom depth ts = true) (around : Nat) (us : List Token) :
    closeParen? (depth + around) (ts ++ us) =
      (closeParen? around us).map fun parts => (ts ++ parts.1, parts.2) := by
  induction ts generalizing depth with
  | nil =>
    obtain rfl := eq_zero_of_balancedFrom_nil h
    rw [Nat.zero_add]
    exact Option.map_id'.symm
  | cons t ts ih =>
    have hinside : depth + around = 0 → t ≠ .rparen := by
      rintro hdepth rfl
      obtain rfl : depth = 0 := by omega
      cases h
    rw [List.cons_append, closeParen?_cons hinside, depthAfter_add h, ih (balancedFrom_tail h),
      Option.map_map]
    rfl

theorem closeParen?_of_balancedFrom (h : balancedFrom depth inner = true) (rest : List Token) :
    closeParen? depth (inner ++ .rparen :: rest) = some (inner, rest) := by
  have hclose := closeParen?_append_of_balancedFrom h 0 (.rparen :: rest)
  rwa [Nat.add_zero, closeParen?, Option.map_some, List.append_nil] at hclose

theorem balancedFrom_of_closeParen? (h : closeParen? depth ts = some (inner, rest)) :
    balancedFrom depth inner = true := by
  induction ts generalizing depth inner with
  | nil => cases h
  | cons t ts ih =>
    by_cases hclose : depth = 0 ∧ t = .rparen
    · obtain ⟨rfl, rfl⟩ := hclose
      cases h
      rfl
    · have hinside : depth = 0 → t ≠ .rparen := fun hdepth ht => hclose ⟨hdepth, ht⟩
      rw [closeParen?_cons hinside] at h
      obtain ⟨⟨inner', rest'⟩, hlater, heq⟩ := Option.map_eq_some_iff.mp h
      cases heq
      have hbalanced := ih hlater
      cases t with
      | rparen =>
        have hdepth : depth ≠ 0 := fun hdepth => hinside hdepth rfl
        rw [balancedFrom, if_neg hdepth]
        exact hbalanced
      | _ => exact hbalanced

theorem depthAfterAll_closeParen? (h : closeParen? depth ts = some (inner, rest)) :
    depthAfterAll (depth + 1) (inner ++ [.rparen]) = 0 :=
  depthAfterAll_of_balancedFrom (balancedFrom_append (balancedFrom_of_closeParen? h) 1 [.rparen])

theorem isSome_closeParen? (h : depthAfterAll (depth + 1) ts = 0) :
    (closeParen? depth ts).isSome := by
  fun_induction closeParen? depth ts <;> simp_all [depthAfter]

/-- Where no parenthesis stays open, a group that starts ends. -/
theorem exists_skipGroup? (h : Closes ts) (hparen : startsWithParen ts = true) :
    ∃ after, skipGroup? ts = some after := by
  unfold startsWithParen at hparen
  split at hparen
  · rename_i rest
    have hclosed : (closeParen? 0 rest).isSome := isSome_closeParen? h
    rw [← Option.isSome_iff_exists, skipGroup?, Option.isSome_map]
    exact hclosed
  · cases hparen

theorem skipGroup?_parens (h : isBalanced inner = true) (rest : List Token) :
    skipGroup? (parens inner ++ rest) = some rest := by
  rw [parens, List.append_assoc, List.singleton_append, List.cons_append, skipGroup?,
    closeParen?_of_balancedFrom h]
  rfl

theorem startsWithParen_of_skipGroup? (h : skipGroup? ts = some rest) :
    startsWithParen ts = true := by
  unfold skipGroup? at h
  split at h
  · rfl
  · cases h

theorem skipGroup?_of_not_paren (h : startsWithParen ts = false) : skipGroup? ts = none := by
  unfold skipGroup?
  split
  · cases h
  · rfl

theorem skipGroup?_append_of_eq_some (h : skipGroup? ts = some rest) (us : List Token) :
    skipGroup? (ts ++ us) = some (rest ++ us) := by
  unfold skipGroup? at h
  split at h
  · obtain ⟨⟨inner, after⟩, hclose, rfl⟩ := Option.map_eq_some_iff.mp h
    rw [List.cons_append, skipGroup?, closeParen?_append_of_eq_some hclose]
    rfl
  · cases h

/-- A scan that passes every token inside parentheses passes a balanced group.  It may remember the
token before. -/
theorem scan_group
    {α : Type} (scan : Token → Nat → List Token → α) {pass : Token → α → α}
    (hscan : ∀ prev depth t ts,
      scan prev (depth + 1) (t :: ts) = pass t (scan t (depthAfter (depth + 1) t) ts))
    (h : balancedFrom depth inner = true) (prev : Token) (rest : List Token) :
    scan prev (depth + 1) (inner ++ rparen :: rest) =
      (inner ++ [rparen]).foldr pass (scan rparen 0 rest) := by
  fun_induction balancedFrom depth inner generalizing prev with
  | case1 depth =>
    obtain rfl : depth = 0 := by simpa using h
    exact hscan prev 0 .rparen rest
  | case2 depth ts ih =>
    rw [List.cons_append, hscan, List.cons_append, List.foldr_cons, ← ih h .lparen]
    rfl
  | case3 => simp at h
  | case4 depth ts hdepth ih =>
    obtain ⟨d, rfl⟩ := Nat.exists_eq_succ_of_ne_zero hdepth
    rw [List.cons_append, hscan, List.cons_append, List.foldr_cons, ← ih h .rparen]
    rfl
  | case5 depth t ts hopen hclose ih =>
    have hdepth : depthAfter (depth + 1) t = depth + 1 := by
      cases t <;> simp_all [depthAfter]
    rw [List.cons_append, hscan, hdepth, ih h]
    rfl

/-! ## Keywords outside parentheses -/

theorem cutAtKw_append_of_ne_nil
    (h : (cutAtKw keywords depth ts).2 ≠ []) (us : List Token) :
    cutAtKw keywords depth (ts ++ us) =
      ((cutAtKw keywords depth ts).1, (cutAtKw keywords depth ts).2 ++ us) := by
  induction ts generalizing depth with
  | nil => exact absurd rfl h
  | cons t ts ih =>
    rw [cutAtKw] at h ⊢
    rw [List.cons_append, cutAtKw]
    split
    · rfl
    · rename_i hnot
      rw [if_neg hnot] at h
      rw [ih h]

theorem fromKw_append_of_ne_nil (h : fromKw keywords ts ≠ []) (us : List Token) :
    fromKw keywords (ts ++ us) = fromKw keywords ts ++ us :=
  congrArg Prod.snd (cutAtKw_append_of_ne_nil h us)

/-- The tokens outside parentheses. -/
def outside (depth : Nat) : List Token → List Token
  | [] => []
  | t :: ts =>
    if depth = 0 then t :: outside (depthAfter depth t) ts else outside (depthAfter depth t) ts

theorem outside_append (depth : Nat) (ts us : List Token) :
    outside depth (ts ++ us) = outside depth ts ++ outside (depthAfterAll depth ts) us := by
  induction ts generalizing depth with
  | nil => rfl
  | cons t ts ih =>
    rw [List.cons_append, outside, outside, ih]
    split <;> rfl

theorem outside_of_balancedFrom (h : balancedFrom depth ts = true) (around : Nat) :
    outside (depth + (around + 1)) ts = [] := by
  induction ts generalizing depth with
  | nil => rfl
  | cons t ts ih => rw [outside, if_neg (by omega), depthAfter_add h, ih (balancedFrom_tail h)]

theorem outside_parens (h : isBalanced inner = true) : outside 0 (parens inner) = [.lparen] := by
  have hinner : outside 1 (inner ++ rparen :: []) = (inner ++ [rparen]).foldr (fun _ us => us) [] :=
    scan_group (fun _ => outside) (fun _ depth t ts => rfl) h .lparen []
  rw [List.foldr_fixed] at hinner
  exact congrArg (List.cons lparen) hinner

theorem snd_cutAtKw_of_forall_outside
    (h : ∀ t ∈ outside depth ts, t.isAnyKw keywords = false) :
    (cutAtKw keywords depth ts).2 = [] := by
  induction ts generalizing depth with
  | nil => rfl
  | cons t ts ih =>
    rw [cutAtKw]
    rw [outside] at h
    split at h
    · rename_i hdepth
      rw [List.forall_mem_cons] at h
      rw [if_neg (by simp [h.1])]
      exact ih h.2
    · rename_i hdepth
      rw [if_neg (fun hcut => hdepth hcut.1)]
      exact ih h

theorem mem_outside_upTo (h : t ∈ outside depth (cutAtKw keywords depth ts).1) :
    t ∈ outside depth ts := by
  rw [← cutAtKw_append keywords depth ts, outside_append]
  exact List.mem_append_left _ h

/-- None of the keywords stands outside parentheses. -/
def Avoids (keywords : List String) (ts : List Token) : Prop :=
  ∀ t ∈ outside 0 ts, t.isAnyKw keywords = false

theorem Avoids.append (hts : Avoids keywords ts) (hcloses : Closes ts) (hus : Avoids keywords us) :
    Avoids keywords (ts ++ us) := by
  intro t ht
  rw [outside_append, hcloses, List.mem_append] at ht
  exact ht.elim (hts t) (hus t)

theorem Avoids.of_append (h : Avoids keywords (ts ++ us)) (hcloses : Closes ts) :
    Avoids keywords us := by
  intro t ht
  apply h t
  rw [outside_append, hcloses]
  exact List.mem_append_right _ ht

/-- Where the list has none of the keywords, the cut goes on in what follows it. -/
theorem cutAtKw_append_of_eq_nil
    (h : (cutAtKw keywords depth ts).2 = []) (hcloses : depthAfterAll depth ts = 0)
    (us : List Token) :
    cutAtKw keywords depth (ts ++ us) =
      (ts ++ (cutAtKw keywords 0 us).1, (cutAtKw keywords 0 us).2) := by
  induction ts generalizing depth with
  | nil =>
    obtain rfl : depth = 0 := hcloses
    rfl
  | cons t ts ih =>
    rw [cutAtKw] at h
    rw [List.cons_append, cutAtKw]
    split
    · rename_i hcut
      rw [if_pos hcut] at h
      cases h
    · rename_i hpass
      rw [if_neg hpass] at h
      rw [ih h hcloses]
      rfl

theorem fromKw_append_of_eq_nil
    (h : fromKw keywords ts = []) (hcloses : Closes ts) (us : List Token) :
    fromKw keywords (ts ++ us) = fromKw keywords us := by
  rw [fromKw, cutAtKw_append_of_eq_nil h hcloses, ← fromKw]

theorem upToKw_append_of_eq_nil
    (h : fromKw keywords ts = []) (hcloses : Closes ts) (us : List Token) :
    upToKw keywords (ts ++ us) = ts ++ upToKw keywords us := by
  rw [upToKw, cutAtKw_append_of_eq_nil h hcloses, ← upToKw]

theorem upToKw_append_of_ne_nil (h : fromKw keywords ts ≠ []) (us : List Token) :
    upToKw keywords (ts ++ us) = upToKw keywords ts := by
  rw [upToKw, cutAtKw_append_of_ne_nil h, ← upToKw]

theorem upToKw_of_eq_nil (h : fromKw keywords ts = []) : upToKw keywords ts = ts := by
  have hparts := cutAtKw_append keywords 0 ts
  have hrest : (cutAtKw keywords 0 ts).2 = [] := h
  rwa [hrest, List.append_nil] at hparts

theorem fromKw_append_of_avoids (h : Avoids keywords ts) (hcloses : Closes ts) (us : List Token) :
    fromKw keywords (ts ++ us) = fromKw keywords us :=
  fromKw_append_of_eq_nil (snd_cutAtKw_of_forall_outside h) hcloses us

/-! ## Commas -/

theorem foldr_consFirst (front item : List Token) (items : List (List Token)) :
    front.foldr consFirst (item :: items) = (front ++ item) :: items := by
  induction front with
  | nil => rfl
  | cons t front ih =>
    rw [List.foldr_cons, ih]
    rfl

theorem foldr_consFirst_nil (h : ts ≠ []) : ts.foldr consFirst [] = [ts] := by
  rw [← List.dropLast_concat_getLast h, List.foldr_append]
  exact foldr_consFirst ts.dropLast _ []

/-- The list stays whole where no comma of it stands outside parentheses. -/
theorem splitCommas_append (h : .comma ∉ outside depth ts) (us : List Token) :
    splitCommas depth (ts ++ us) =
      ts.foldr consFirst (splitCommas (depthAfterAll depth ts) us) := by
  induction ts generalizing depth with
  | nil => rfl
  | cons t ts ih =>
    rw [outside] at h
    have hlater : .comma ∉ outside (depthAfter depth t) ts := by
      split at h
      · exact fun hmem => h (List.mem_cons_of_mem t hmem)
      · exact h
    have hpass : ¬ (t = .comma ∧ depth = 0) := by
      rintro ⟨rfl, rfl⟩
      exact h List.mem_cons_self
    rw [List.cons_append, splitCommas, if_neg hpass, ih hlater, List.foldr_cons]
    rfl

/-- Lists between commas are the parts that they are. -/
theorem splitCommas_intercalate
    {parts : List (List Token)}
    (h : ∀ part ∈ parts, part ≠ [] ∧ Closes part ∧ .comma ∉ outside 0 part) :
    splitCommas 0 ([comma].intercalate parts) = parts := by
  induction parts with
  | nil => rfl
  | cons part parts ih =>
    rw [List.forall_mem_cons] at h
    obtain ⟨⟨hnonempty, hcloses, hcomma⟩, hlater⟩ := h
    cases parts with
    | nil =>
      rw [List.intercalate_singleton, ← List.append_nil part, splitCommas_append hcomma,
        List.append_nil]
      exact foldr_consFirst_nil hnonempty
    | cons next parts =>
      rw [List.intercalate_cons_cons, List.append_assoc, splitCommas_append hcomma, hcloses,
        List.singleton_append, splitCommas, if_pos ⟨rfl, rfl⟩, ih hlater, foldr_consFirst,
        List.append_nil]

/-- What holds of the parts, of what stands between them, and of two lists together, holds of the
parts in a row. -/
theorem intercalate_induction
    {α : Type} {P : List α → Prop} {sep : List α} {parts : List (List α)} (hnil : P [])
    (happend : ∀ xs ys, P xs → P ys → P (xs ++ ys)) (hsep : P sep) (h : ∀ part ∈ parts, P part) :
    P (sep.intercalate parts) := by
  induction parts with
  | nil => exact hnil
  | cons part parts ih =>
    rw [List.forall_mem_cons] at h
    cases parts with
    | nil => exact List.intercalate_singleton ▸ h.1
    | cons next parts =>
      rw [List.intercalate_cons_cons]
      exact happend _ _ (happend _ _ h.1 hsep) (ih h.2)

end SqlSnapshot.Token
