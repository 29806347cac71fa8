import SqlSnapshot.Proofs.Definition.Body
import SqlSnapshot.Proofs.Token.Parts

/-!
# Scans before a terminator

Outside parentheses a terminator stops the scans of statements, so that what a scan takes does not
depend on what stands behind one.  The ends of `UPDATE`, of cursors and of `INSERT` with `OUTPUT`
are searched by a later keyword, and a terminator does not stop that search: it must find the
keyword before.
-/

namespace SqlSnapshot

open Token

variable {t : Token} {ts after others : List Token} {keyword : String}

/-! ## Scans before a terminator -/

theorem startsWithKw_terminated (keyword : String) (ts others : List Token) :
    startsWithKw keyword (ts ++ .semicolon :: others) = startsWithKw keyword ts := by
  cases ts <;> rfl

theorem startsWithParen_terminated (ts others : List Token) :
    startsWithParen (ts ++ .semicolon :: others) = startsWithParen ts := by
  cases ts with
  | nil => rfl
  | cons t ts => cases t <;> rfl

namespace Body

theorem startsStatement_terminated
    (prev t : Token) (ts others : List Token) (caseDepth : Nat) :
    startsStatement prev t (ts ++ .semicolon :: others) caseDepth =
      startsStatement prev t ts caseDepth := by
  have hhead : (ts ++ .semicolon :: others).head? = some .period ↔ ts.head? = some .period := by
    cases ts <;> simp
  unfold startsStatement
  rw [startsWithKw_terminated, startsWithParen_terminated]
  simp only [hhead]

theorem cutStatement_terminated
    {depth : Nat} (h : depthAfterAll depth ts = 0) (prev : Token) (caseDepth : Nat)
    (others : List Token) :
    cutStatement prev depth caseDepth (ts ++ .semicolon :: others) =
      ((cutStatement prev depth caseDepth ts).1,
        (cutStatement prev depth caseDepth ts).2 ++ .semicolon :: others) := by
  induction ts generalizing prev depth caseDepth with
  | nil =>
    obtain rfl : depth = 0 := h
    simp [cutStatement]
  | cons t ts ih =>
    have hword : ∀ {keyword}, t.isKw keyword = true → depth = 0 → depthAfterAll 0 ts = 0 := by
      rintro keyword hkeyword rfl
      rw [depthAfterAll_cons, depthAfter_of_isAnyKw hkeyword] at h
      exact h
    rw [List.cons_append, cutStatement, cutStatement, startsStatement_terminated]
    split
    · rename_i hdepth
      split
      · rfl
      split
      · rename_i hcase
        rw [ih (hword hcase hdepth)]
      split
      · rename_i hend
        rw [ih (hword hend.1 hdepth)]
      split
      · rfl
      · subst hdepth
        rw [ih h]
    · rw [ih h]

theorem afterStatement_terminated (h : Closes ts) (t : Token) (others : List Token) :
    afterStatement (t :: ts ++ .semicolon :: others) =
      afterStatement (t :: ts) ++ .semicolon :: others :=
  congrArg Prod.snd (cutStatement_terminated h t 0 others)

theorem afterStatement_terminated_of_ne_nil (h : Closes ts) (hne : ts ≠ []) (others : List Token) :
    afterStatement (ts ++ .semicolon :: others) = afterStatement ts ++ .semicolon :: others := by
  cases ts with
  | nil => exact absurd rfl hne
  | cons t ts => exact afterStatement_terminated h.tail t others

/-! ## Groups -/

/-- Skips a group at the front, and nothing else. -/
structure SkipsGroup (skip : List Token → List Token) : Prop where
  group : ∀ {ts after}, skipGroup? ts = some after → skip ts = after
  other : ∀ {ts}, startsWithParen ts = false → skip ts = ts

namespace SkipsGroup

variable {skip : List Token → List Token}

theorem terminated (hskip : SkipsGroup skip) (h : Closes ts) (others : List Token) :
    skip (ts ++ .semicolon :: others) = skip ts ++ .semicolon :: others := by
  cases hparen : startsWithParen ts with
  | false =>
    rw [hskip.other hparen, hskip.other ((startsWithParen_terminated ts others).trans hparen)]
  | true =>
    obtain ⟨after, hafter⟩ := exists_skipGroup? h hparen
    rw [hskip.group hafter, hskip.group (skipGroup?_append_of_eq_some hafter _)]

end SkipsGroup

theorem skipsGroup_skipColumns : SkipsGroup skipColumns where
  group h := by rw [skipColumns, if_pos (startsWithParen_of_skipGroup? h), h, Option.getD_some]
  other h := by rw [skipColumns, if_neg (by simp [h])]

theorem skipsGroup_skipToClose : SkipsGroup skipToClose where
  group h := by rw [skipToClose, if_pos (startsWithParen_of_skipGroup? h), h, Option.getD_some]
  other h := by rw [skipToClose, if_neg (by simp [h])]

/-! ## Common table expressions -/

theorem startsCtes_terminated (t : Token) (ts others : List Token) :
    startsCtes t (ts ++ .semicolon :: others) = startsCtes t ts := by
  match ts with
  | [] => cases others <;> simp [startsCtes, isWord]
  | [name] => simp [startsCtes, isKw, isAnyKw]
  | name :: next :: ts => rfl

theorem closes_skipToClose (h : Closes (t :: ts)) : Closes (skipToClose ts) :=
  h.tail.of_suffix (isSuffix_skipToClose ts)

theorem readCtes_terminated (h : Closes ts) (others : List Token) :
    readCtes (ts ++ .semicolon :: others) =
      ((readCtes ts).1, (readCtes ts).2 ++ .semicolon :: others) := by
  fun_induction readCtes ts with
  | case1 name quoted rest t query hs has hparen more hq x names after hmore ih =>
    have hquery : Closes (t :: query) := hs ▸ closes_skipToClose h
    have hrest : Closes (.comma :: more) := hq ▸ closes_skipToClose hquery
    have hwhole := ih hrest.tail
    rw [List.cons_append, readCtes_word, skipsGroup_skipToClose.terminated h.tail, hs]
    dsimp only [List.cons_append]
    rw [if_pos has, startsWithParen_terminated, if_pos hparen,
      skipsGroup_skipToClose.terminated hquery.tail, hq]
    dsimp only [List.cons_append]
    rw [hwhole, hmore]
  | case2 name quoted rest t query hs has hparen hq =>
    have hquery : Closes (t :: query) := hs ▸ closes_skipToClose h
    rw [List.cons_append, readCtes_word, skipsGroup_skipToClose.terminated h.tail, hs]
    dsimp only [List.cons_append]
    rw [if_pos has, startsWithParen_terminated, if_pos hparen,
      skipsGroup_skipToClose.terminated hquery.tail]
    cases hlast : skipToClose query with
    | nil => rfl
    | cons u us => cases u <;> first | rfl | exact absurd hlast (hq us)
  | case3 name quoted rest t query hs has hparen =>
    rw [List.cons_append, readCtes_word, skipsGroup_skipToClose.terminated h.tail, hs]
    dsimp only [List.cons_append]
    rw [if_pos has, startsWithParen_terminated, if_neg hparen]
  | case4 name quoted rest t query hs has =>
    rw [List.cons_append, readCtes_word, skipsGroup_skipToClose.terminated h.tail, hs]
    dsimp only [List.cons_append]
    rw [if_neg has]
  | case5 name quoted rest hs =>
    rw [List.cons_append, readCtes_word, skipsGroup_skipToClose.terminated h.tail, hs]
    rfl
  | case6 ts hname =>
    have hword : ∀ name quoted rest, ts ++ .semicolon :: others ≠ .word name quoted :: rest := by
      intro name quoted rest heq
      cases ts with
      | nil => cases heq
      | cons t ts => exact hname name quoted ts (by rw [(List.cons.inj heq).1])
    rw [readCtes]
    · exact hword

/-! ## Ends of statements -/

/-- The statement that starts with `t` ends within `ts`: what its end is searched by stands
there. -/
structure HoldsEnd (t : Token) (ts : List Token) : Prop where
  update : t.isKw "UPDATE" = true → fromKw ["SET"] ts ≠ []
  cursor : t.isKw "DECLARE" = true → 2 ≤ ts.length ∧
    ((ts.take 3).any (·.isKw "CURSOR") = true → fromKw ["FOR"] ts ≠ [])
  source : t.isKw "INSERT" = true → ∀ parts rest, readName? (insertTarget ts) = some (parts, rest) →
    insertSource rest ≠ [] ∧ startsWithKw "OUTPUT" (insertSource rest) = false

theorem insertTarget_terminated (ts others : List Token) :
    insertTarget (ts ++ .semicolon :: others) = insertTarget ts ++ .semicolon :: others := by
  unfold insertTarget
  rw [startsWithKw_terminated]
  split
  · cases ts with
    | nil => simp_all [startsWithKw]
    | cons t ts => rfl
  · rfl

theorem skipHints_terminated (h : Closes ts) (others : List Token) :
    skipHints (ts ++ .semicolon :: others) = skipHints ts ++ .semicolon :: others := by
  cases ts with
  | nil => rfl
  | cons t ts =>
    have hwith : startsWithKw "WITH" (t :: ts ++ .semicolon :: others) =
        startsWithKw "WITH" (t :: ts) := rfl
    unfold skipHints
    rw [hwith, List.cons_append, List.drop_one, List.tail_cons, List.drop_one, List.tail_cons,
      startsWithParen_terminated]
    split
    · rename_i hhints
      rw [Bool.and_eq_true] at hhints
      obtain ⟨after, hafter⟩ := exists_skipGroup? h.tail hhints.2
      rw [hafter, skipGroup?_append_of_eq_some hafter]
      rfl
    · rfl

theorem skipOutput_terminated
    (h : startsWithKw "OUTPUT" (skipOutput ts) = false) (others : List Token) :
    skipOutput (ts ++ .semicolon :: others) = skipOutput ts ++ .semicolon :: others := by
  unfold skipOutput at h ⊢
  rw [startsWithKw_terminated]
  split
  · rename_i houtput
    rw [if_pos houtput] at h
    split at h
    · rw [h] at houtput
      cases houtput
    · rename_i hfound
      obtain ⟨u, us, hsource⟩ := List.exists_cons_of_ne_nil hfound
      rw [fromKw_append_of_ne_nil hfound, hsource]
      rfl
  · rfl

theorem insertSource_terminated
    (h : Closes ts) (hsource : startsWithKw "OUTPUT" (insertSource ts) = false)
    (others : List Token) :
    insertSource (ts ++ .semicolon :: others) = insertSource ts ++ .semicolon :: others := by
  have hhints : Closes (skipHints ts) := h.of_suffix (isSuffix_skipHints ts)
  rw [insertSource_eq] at hsource
  rw [insertSource_eq, insertSource_eq, skipHints_terminated h,
    skipsGroup_skipColumns.terminated hhints, skipOutput_terminated hsource]

theorem afterInsert_terminated
    (h : Closes ts) (hends : HoldsEnd t ts) (ht : t.isKw "INSERT" = true) (others : List Token) :
    afterInsert t (ts ++ .semicolon :: others) = afterInsert t ts ++ .semicolon :: others := by
  rw [afterInsert_eq, afterInsert_eq, insertTarget_terminated, readName?_append (by simp) rfl]
  cases hname : readName? (insertTarget ts) with
  | none => exact afterStatement_terminated h t others
  | some name =>
    obtain ⟨parts, rest⟩ := name
    obtain ⟨hnonempty, hsource⟩ := hends.source ht parts rest hname
    have hrest : Closes rest :=
      h.of_suffix ((isSuffix_readName? hname).trans (isSuffix_insertTarget ts))
    have hcloses : Closes (insertSource rest) := hrest.of_suffix (isSuffix_insertSource rest)
    dsimp only [Option.map_some]
    rw [insertSource_terminated hrest hsource,
      afterStatement_terminated_of_ne_nil hcloses hnonempty]

theorem afterUpdate_of_ne_nil (h : fromKw ["SET"] ts ≠ []) (t : Token) :
    afterUpdate t ts = afterStatement (fromKw ["SET"] ts) := by
  unfold afterUpdate
  split
  · contradiction
  · rfl

theorem afterUpdate_terminated
    (h : Closes ts) (hset : fromKw ["SET"] ts ≠ []) (t : Token) (others : List Token) :
    afterUpdate t (ts ++ .semicolon :: others) = afterUpdate t ts ++ .semicolon :: others := by
  have hcloses : Closes (fromKw ["SET"] ts) := h.of_suffix (isSuffix_fromKw _ ts)
  have hlonger := fromKw_append_of_ne_nil hset (.semicolon :: others)
  rw [afterUpdate_of_ne_nil hset, afterUpdate_of_ne_nil (by rw [hlonger]; simp), hlonger,
    afterStatement_terminated_of_ne_nil hcloses hset]

theorem afterDeclare_terminated
    (h : Closes ts) (hends : HoldsEnd t ts) (ht : t.isKw "DECLARE" = true) (others : List Token) :
    afterDeclare t (ts ++ .semicolon :: others) = afterDeclare t ts ++ .semicolon :: others := by
  obtain ⟨hlength, hfor⟩ := hends.cursor ht
  have hcursor : ((ts ++ .semicolon :: others).take 3).any (·.isKw "CURSOR") =
      (ts.take 3).any (·.isKw "CURSOR") := by
    match ts, hlength with
    | [a, b], _ => simp [isKw, isAnyKw]
    | a :: b :: c :: ts, _ => rfl
  unfold afterDeclare
  dsimp only
  rw [hcursor]
  cases hdeclared : (ts.take 3).any (·.isKw "CURSOR") with
  | false => exact afterStatement_terminated h t others
  | true =>
    have hquery : (fromKw ["FOR"] (ts ++ .semicolon :: others)).drop 1 =
        (fromKw ["FOR"] ts).drop 1 ++ .semicolon :: others := by
      rw [fromKw_append_of_ne_nil (hfor hdeclared)]
      obtain ⟨u, us, hfound⟩ := List.exists_cons_of_ne_nil (hfor hdeclared)
      rw [hfound]
      rfl
    rw [hquery, startsWithKw_terminated]
    split
    · rename_i hselect
      apply afterStatement_terminated_of_ne_nil
      · exact h.of_suffix ((List.drop_suffix 1 _).trans (isSuffix_fromKw _ ts))
      · intro hnil
        simp [hnil, startsWithKw] at hselect
    · exact afterStatement_terminated h t others

/-- A `MERGE` takes the terminator with it. -/
theorem afterSemicolon_terminated
    {depth : Nat} (h : depthAfterAll depth ts = 0) (others : List Token) :
    afterSemicolon depth (ts ++ .semicolon :: others) =
        afterSemicolon depth ts ++ .semicolon :: others ∨
      afterSemicolon depth ts = [] ∧
        afterSemicolon depth (ts ++ .semicolon :: others) = others := by
  induction ts generalizing depth with
  | nil =>
    obtain rfl : depth = 0 := h
    exact .inr ⟨rfl, rfl⟩
  | cons t ts ih =>
    rw [List.cons_append, afterSemicolon, afterSemicolon]
    split
    · exact .inl rfl
    · exact ih h

end Body

end SqlSnapshot
