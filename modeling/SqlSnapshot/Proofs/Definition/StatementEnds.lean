import SqlSnapshot.Proofs.Definition.NestedSelect
import SqlSnapshot.Proofs.Definition.SingleSources
import SqlSnapshot.Proofs.Definition.Statements

/-!
# Selects to their ends

The scan for the end of a select may stop before it: `FETCH`, a `WITH` before `ROLLUP` and the join
hint `MERGE` are taken for starts of statements.  What is left of the select then contributes
nothing, since none of its words starts a statement that is looked into.  A `MERGE` skips whatever
follows it up to the next terminator.
-/

namespace SqlSnapshot

open Token

namespace Body

variable {ctes : List String} {prev t : Token} {ts us rest : List Token} {depth : Nat}
  {words next : List String} {usesMerge : Bool}

/-! ## Words that start nothing -/

/-- Words at which the reader looks into a statement. -/
def readWords : List String :=
  ["SELECT", "INSERT", "UPDATE", "MERGE", "DECLARE", "DELETE", "SET", "EXEC", "EXECUTE"]

/-- The reader takes nothing from the tokens, wherever it meets them. -/
def IsIdle (ts : List Token) : Prop :=
  ∀ ctes rest, read ctes (ts ++ rest) = read ctes rest

/-- None of the words outside parentheses starts a statement that is looked into. -/
def HoldsNoStatement (ts : List Token) : Prop :=
  Avoids ("WITH" :: readWords) ts

theorem readStatement?_of_not_read (h : t.isAnyKw readWords = false) (ctes : List String)
    (ts : List Token) : readStatement? ctes t ts = none := by
  have hnot : ∀ keywords, (∀ k ∈ keywords, k ∈ readWords) → t.isAnyKw keywords = false :=
    fun _ hsubset => isAnyKw_eq_false_of_subset h hsubset
  simp [readStatement?, isKw, hnot ["SELECT"] (by decide), hnot ["INSERT"] (by decide),
    hnot ["UPDATE"] (by decide), hnot ["MERGE"] (by decide), hnot ["DECLARE"] (by decide),
    hnot ["DELETE", "SET"] (by decide), hnot ["EXEC", "EXECUTE"] (by decide)]

theorem read_skip (ht : t ≠ .lparen) (h : t.isAnyKw ("WITH" :: readWords) = false)
    (ctes : List String) (ts : List Token) : read ctes (t :: ts) = read ctes ts := by
  have hwith : t.isKw "WITH" = false := isAnyKw_eq_false_of_subset h (by decide)
  have hread : t.isAnyKw readWords = false :=
    isAnyKw_eq_false_of_subset h fun _ hk => List.mem_cons_of_mem "WITH" hk
  exact read_other ht (by simp [startsCtes_of_not_with hwith])
    (readStatement?_of_not_read hread ctes ts)

theorem isIdle_nil : IsIdle [] :=
  fun _ _ => rfl

theorem IsIdle.append (hts : IsIdle ts) (hus : IsIdle us) : IsIdle (ts ++ us) := by
  intro ctes rest
  rw [List.append_assoc, hts, hus]

theorem isIdle_singleton (ht : t ≠ .lparen) (h : t.isAnyKw ("WITH" :: readWords) = false) :
    IsIdle [t] :=
  fun ctes rest => read_skip ht h ctes rest

theorem isIdle_keyword
    {keywords : List String} (k : Keyword keywords)
    (hother : ∀ word ∈ keywords, word ∉ "WITH" :: readWords) : IsIdle [k.1] :=
  isIdle_singleton (ne_of_isAnyKw k.2 rfl) (isAnyKw_eq_false_of_disjoint k.2 hother)

theorem isIdle_parens {inner : List Token} (h : isBalanced inner = true) :
    IsIdle (parens inner) := by
  intro ctes rest
  exact read_group (skipGroup?_parens h rest)

theorem isIdle_of_holdsNoStatement (hcloses : Closes ts) (h : HoldsNoStatement ts) :
    IsIdle ts := by
  -- On the length: a group is skipped as a whole.
  induction hlength : ts.length using Nat.strongRecOn generalizing ts with
  | ind n ih =>
    cases ts with
    | nil => exact isIdle_nil
    | cons t ts =>
      by_cases ht : t = .lparen
      · subst ht
        have hsome : (closeParen? 0 ts).isSome := isSome_closeParen? hcloses
        obtain ⟨⟨inner, after⟩, hclose⟩ := Option.isSome_iff_exists.mp hsome
        have hgroup : .lparen :: ts = .lparen :: (inner ++ [.rparen]) ++ after := by
          rw [closeParen?_append hclose]
          simp
        have hskip : skipGroup? (.lparen :: ts) = some after := by
          rw [skipGroup?, hclose]
          rfl
        have hfront : Closes (.lparen :: (inner ++ [.rparen])) := depthAfterAll_closeParen? hclose
        have hafter : HoldsNoStatement after := Avoids.of_append (hgroup ▸ h) hfront
        have hshorter : after.length < n := hlength ▸ length_skipGroup? hskip
        intro ctes rest
        have hread : read ctes (.lparen :: ts ++ rest) = read ctes (after ++ rest) :=
          read_group (skipGroup?_append_of_eq_some hskip rest)
        rw [hread]
        exact ih _ hshorter (hcloses.of_suffix ⟨_, hgroup.symm⟩) hafter rfl ctes rest
      · have hfirst : t.isAnyKw ("WITH" :: readWords) = false :=
          h t (by rw [outside, if_pos rfl]; exact List.mem_cons_self)
        have hone : Closes [t] := by
          cases t <;> first | rfl | exact absurd rfl ht
        have hwhole : Avoids ("WITH" :: readWords) ([t] ++ ts) := h
        have hlater : HoldsNoStatement ts := hwhole.of_append hone
        intro ctes rest
        rw [List.cons_append, read_skip ht hfirst]
        exact ih _ (by rw [← hlength]; simp) hcloses.tail hlater rfl ctes rest

/-! ## Tokens without a terminator -/

/-- Balanced tokens with no terminator outside parentheses. -/
structure IsUnterminated (ts : List Token) : Prop where
  balanced : isBalanced ts = true
  no_semicolon : .semicolon ∉ outside 0 ts

theorem isUnterminated_nil : IsUnterminated [] :=
  ⟨rfl, List.not_mem_nil⟩

theorem IsUnterminated.append (hts : IsUnterminated ts) (hus : IsUnterminated us) :
    IsUnterminated (ts ++ us) where
  balanced := isBalanced_append hts.balanced hus.balanced
  no_semicolon := by
    rw [outside_append, depthAfterAll_of_balancedFrom hts.balanced, List.mem_append]
    exact not_or.mpr ⟨hts.no_semicolon, hus.no_semicolon⟩

theorem isUnterminated_keyword {keywords : List String} (h : t.isAnyKw keywords = true) :
    IsUnterminated [t] where
  balanced := isBalanced_keyword h
  no_semicolon := by
    have hne : t ≠ .semicolon := ne_of_isAnyKw h rfl
    simpa [outside] using hne.symm

/-- What is cut off for a statement holds no terminator. -/
theorem semicolon_notMem_cutStatement (prev : Token) (depth caseDepth : Nat) (ts : List Token) :
    .semicolon ∉ outside depth (cutStatement prev depth caseDepth ts).1 := by
  induction ts generalizing prev depth caseDepth with
  | nil => exact List.not_mem_nil
  | cons t ts ih =>
    have hkeep : ∀ caseDepth, (depth = 0 → t ≠ .semicolon) →
        .semicolon ∉ outside depth (t :: (cutStatement t (depthAfter depth t) caseDepth ts).1) := by
      intro caseDepth hne
      rw [outside]
      split
      · rename_i hdepth
        exact List.not_mem_cons_of_ne_of_not_mem (hne hdepth).symm (ih _ _ _)
      · exact ih _ _ _
    have hword : ∀ {keyword caseDepth}, t.isKw keyword = true → depth = 0 →
        .semicolon ∉ outside 0 (t :: (cutStatement t 0 caseDepth ts).1) := by
      rintro keyword caseDepth hkeyword rfl
      have hkept := hkeep caseDepth fun _ => ne_of_isAnyKw hkeyword rfl
      rwa [depthAfter_of_isAnyKw hkeyword] at hkept
    rw [cutStatement]
    split
    · rename_i hdepth
      subst hdepth
      split
      · exact List.not_mem_nil
      rename_i hstay
      split
      · rename_i hcase
        exact hword hcase rfl
      split
      · rename_i hend
        exact hword hend.1 rfl
      split
      · exact List.not_mem_nil
      · exact hkeep caseDepth fun _ => (not_or.mp hstay).2
    · rename_i hdepth
      exact hkeep caseDepth fun hzero => absurd hzero hdepth

theorem isUnterminated_of_passes (hpasses : Passes false ts) (hbalanced : isBalanced ts = true) :
    IsUnterminated ts where
  balanced := hbalanced
  no_semicolon := by
    have hcut := semicolon_notMem_cutStatement .semicolon 0 0 ts
    rwa [hpasses.cutStatement_all] at hcut

theorem afterSemicolon_append
    (hdepth : depthAfterAll depth ts = 0) (h : .semicolon ∉ outside depth ts) (rest : List Token) :
    afterSemicolon depth (ts ++ rest) = afterSemicolon 0 rest := by
  induction ts generalizing depth with
  | nil =>
    obtain rfl : depth = 0 := hdepth
    rfl
  | cons t ts ih =>
    rw [outside] at h
    have hpass : ¬ (t = .semicolon ∧ depth = 0) := by
      rintro ⟨rfl, rfl⟩
      exact h List.mem_cons_self
    have hlater : .semicolon ∉ outside (depthAfter depth t) ts := by
      split at h
      · exact fun hmem => h (List.mem_cons_of_mem t hmem)
      · exact h
    rw [List.cons_append, afterSemicolon, if_neg hpass]
    exact ih hdepth hlater

theorem IsUnterminated.afterSemicolon_append (h : IsUnterminated ts) (rest : List Token) :
    afterSemicolon 0 (ts ++ rest) = afterSemicolon 0 rest :=
  Body.afterSemicolon_append (depthAfterAll_of_balancedFrom h.balanced) h.no_semicolon rest

/-! ## Ends of statements -/

/-- The scan for the end of the statement stops at once behind the token. -/
def StopsBehind (prev : Token) (rest : List Token) : Prop :=
  (cutStatement prev 0 0 rest).1 = []

theorem stopsBehind_semicolon (prev : Token) (rest : List Token) :
    StopsBehind prev (.semicolon :: rest) := by
  simp [StopsBehind, cutStatement]

theorem StopsBehind.cutStatement_eq (h : StopsBehind prev rest) :
    cutStatement prev 0 0 rest = ([], rest) := by
  have hwhole := append_cutStatement prev 0 0 rest
  rw [h, List.nil_append] at hwhole
  exact Prod.ext h hwhole

/-- Where a keyword that may start a statement stands, the scan stops before it or passes it. -/
theorem cutStatement_keyword
    {keywords : List String} (h : t.isAnyKw keywords = true)
    (hother : ∀ word ∈ keywords, word ∉ ["CASE", "END"]) (prev : Token) (ts : List Token) :
    cutStatement prev 0 0 (t :: ts) = ([], t :: ts) ∨
      cutStatement prev 0 0 (t :: ts) = carry [t] (cutStatement t 0 0 ts) := by
  have hnot : t.isAnyKw ["CASE", "END"] = false := isAnyKw_eq_false_of_disjoint h hother
  have hcase : t.isKw "CASE" = false := isAnyKw_eq_false_of_subset hnot (by decide)
  have hend : t.isKw "END" = false := isAnyKw_eq_false_of_subset hnot (by decide)
  have hplain := isPlain_of_isAnyKw h
  cases hstart : startsStatement prev t ts 0 with
  | true =>
    refine .inl ?_
    rw [cutStatement, if_pos rfl, if_neg (not_or.mpr (ne_of_isPlain hplain)),
      if_neg (by simp [hcase]), if_neg (by simp [hend]), if_pos hstart]
  | false => exact .inr (cutStatement_plain hplain hcase hend hstart)

/-- Behind a set operator, `SELECT` starts no statement. -/
theorem cutStatement_select
    (hprev : prev.isAnyKw ["UNION", "ALL", "EXCEPT", "INTERSECT"] = true)
    (ht : t.isKw "SELECT" = true) (caseDepth : Nat) :
    cutStatement prev 0 caseDepth (t :: ts) = carry [t] (cutStatement t 0 caseDepth ts) := by
  have hstart : startsStatement prev t ts caseDepth = false := by
    have helse : t.isKw "ELSE" = false := isAnyKw_eq_false_of_disjoint ht (by decide)
    simp [startsStatement, ht, hprev, helse]
  exact cutStatement_plain (isPlain_of_isAnyKw ht) (isAnyKw_eq_false_of_disjoint ht (by decide))
    (isAnyKw_eq_false_of_disjoint ht (by decide)) hstart

/-- What the reader goes on with behind a select: what follows it, or if the select uses `MERGE`,
what follows the next terminator. -/
def IsLeft (usesMerge : Bool) (rest left : List Token) : Prop :=
  left = rest ∨ usesMerge = true ∧ left = afterSemicolon 0 rest

/-- Wherever the scan stops in the tokens, what is left of them contributes nothing. -/
structure EndsIdle (usesMerge : Bool) (ts : List Token) : Prop where
  unterminated : IsUnterminated ts
  ends : ∀ prev rest, StopsBehind (lastOf prev ts) rest →
    ∃ left, read [] (cutStatement prev 0 0 (ts ++ rest)).2 = read [] left ∧
      IsLeft usesMerge rest left

theorem endsIdle_nil (usesMerge : Bool) : EndsIdle usesMerge [] where
  unterminated := isUnterminated_nil
  ends prev rest h := by
    rw [lastOf_nil] at h
    exact ⟨rest, by rw [List.nil_append, h.cutStatement_eq], .inl rfl⟩

theorem EndsIdle.mono {usesMerge' : Bool} (h : EndsIdle usesMerge ts)
    (himp : usesMerge = true → usesMerge' = true) : EndsIdle usesMerge' ts where
  unterminated := h.unterminated
  ends prev rest hrest := by
    obtain ⟨left, hread, hleft⟩ := h.ends prev rest hrest
    exact ⟨left, hread, hleft.imp_right fun hskip => ⟨himp hskip.1, hskip.2⟩⟩

theorem EndsIdle.quiet_append (hus : EndsIdle usesMerge us) (hts : IsQuiet ts) :
    EndsIdle usesMerge (ts ++ us) where
  unterminated := (isUnterminated_of_passes hts.passes hts.balanced).append hus.unterminated
  ends prev rest hrest := by
    rw [lastOf_append] at hrest
    obtain ⟨left, hread, hleft⟩ := hus.ends _ rest hrest
    refine ⟨left, ?_, hleft⟩
    rw [List.append_assoc, hts.passes prev 0 (us ++ rest) (by simp)]
    exact hread

theorem endsIdle_of_isQuiet (h : IsQuiet ts) : EndsIdle usesMerge ts := by
  have hends := (endsIdle_nil usesMerge).quiet_append h
  rwa [List.append_nil] at hends

/-- A keyword that may start a statement: the scan may stop before it, or pass it. -/
theorem EndsIdle.keyword_cons
    {keywords : List String} (k : Keyword keywords)
    (hother : ∀ word ∈ keywords, word ∉ ["CASE", "END"]) (hus : EndsIdle usesMerge us)
    (hstop : ∀ rest, StopsBehind (lastOf k.1 us) rest →
      ∃ left, read [] (k.1 :: us ++ rest) = read [] left ∧ IsLeft usesMerge rest left) :
    EndsIdle usesMerge (k.1 :: us) where
  unterminated := (isUnterminated_keyword k.2).append hus.unterminated
  ends prev rest hrest := by
    have hlast : lastOf prev (k.1 :: us) = lastOf k.1 us := lastOf_append prev [k.1] us
    rw [hlast] at hrest
    rw [List.cons_append]
    rcases cutStatement_keyword k.2 hother prev (us ++ rest) with hcut | hcut
    · rw [hcut]
      exact hstop rest hrest
    · rw [hcut]
      exact hus.ends k.1 rest hrest

/-- Behind an idle rest of the select, the reader goes on with what follows. -/
theorem EndsIdle.idle_cons
    {keywords : List String} (k : Keyword keywords)
    (hother : ∀ word ∈ keywords, word ∉ ["CASE", "END"]) (hus : EndsIdle usesMerge us)
    (hidle : IsIdle (k.1 :: us)) : EndsIdle usesMerge (k.1 :: us) :=
  hus.keyword_cons k hother fun rest _ => ⟨rest, hidle [] rest, .inl rfl⟩

theorem read_merge (ht : t.isKw "MERGE" = true) (ts : List Token) :
    read ctes (t :: ts) = read [] (afterSemicolon 0 ts) := by
  have hnot : ∀ keywords, "MERGE" ∉ keywords → t.isAnyKw keywords = false :=
    fun keywords hmem => isAnyKw_eq_false_of_disjoint ht (by simpa using hmem)
  have hstatement : readStatement? ctes t ts = some (.ok {}, afterSemicolon 0 ts) := by
    rw [readStatement?, if_neg (by simp [isKw, hnot]), if_neg (by simp [isKw, hnot]),
      if_neg (by simp [isKw, hnot]), if_pos ht]
  have hctes := startsCtes_of_not_with (hnot ["WITH"] (by decide)) ts
  rw [read_statement (ne_of_isAnyKw ht rfl) (by simp [hctes]) hstatement, empty_followedBy]

theorem EndsIdle.merge_cons (k : Keyword ["MERGE"]) (hus : EndsIdle usesMerge us) :
    EndsIdle true (k.1 :: us) := by
  refine (hus.mono fun _ => rfl).keyword_cons k (by decide) fun rest _ => ?_
  refine ⟨afterSemicolon 0 rest, ?_, .inr ⟨rfl, rfl⟩⟩
  rw [List.cons_append, read_merge k.2, hus.unterminated.afterSemicolon_append]

/-- Where the scan stops, no body of a common table expression follows. -/
theorem StopsBehind.not_body (h : StopsBehind prev (t :: ts)) :
    t.isKw "AS" = false ∧ t ≠ .lparen := by
  constructor
  · by_contra has
    have hpasses : Passes false [t] := passes_keyword (eq_true_of_ne_false has) (by decide)
    have hcut := hpasses prev 0 ts (by simp)
    rw [List.singleton_append] at hcut
    rw [StopsBehind, hcut] at h
    cases h
  · rintro rfl
    rw [StopsBehind, cutStatement] at h
    simp [isKw, isAnyKw, startsStatement] at h

theorem startsCtes_of_not_body
    (h : ∀ u ∈ ts.head?, u.isKw "AS" = false ∧ u ≠ .lparen) (t name : Token) :
    startsCtes t (name :: ts) = false := by
  cases ts with
  | nil => simp [startsCtes]
  | cons u us =>
    obtain ⟨has, hparen⟩ := h u rfl
    simp [startsCtes, has, hparen]

/-- The scan stops before a `WITH` that belongs to a clause. -/
theorem EndsIdle.with_cons
    (first : Keyword ["WITH"]) (second : Keyword words)
    (hwords : ∀ word ∈ words, word ∉ "INTO" :: "CASE" :: statementKeywords)
    (hus : EndsIdle usesMerge us) (hnext : Source.Ends next us) (has : "AS" ∉ next)
    (hidle : IsIdle us) : EndsIdle usesMerge (first.1 :: second.1 :: us) := by
  have hread : ∀ word ∈ "WITH" :: readWords, word ∈ "INTO" :: "CASE" :: statementKeywords := by
    decide
  have hsecond : IsIdle [second.1] :=
    isIdle_keyword second fun word hword hmem => hwords word hword (hread word hmem)
  refine (hus.quiet_append (IsQuiet.keyword second hwords)).keyword_cons first (by decide)
    fun rest hrest => ⟨rest, ?_, .inl rfl⟩
  have hbody : ∀ u ∈ (us ++ rest).head?, u.isKw "AS" = false ∧ u ≠ .lparen := by
    intro u hu
    cases us with
    | nil =>
      -- What follows the select is no `AS` either, or the scan would not stop there.
      cases rest with
      | nil => cases hu
      | cons v rest =>
        obtain rfl := Option.some.inj hu
        exact hrest.not_body
    | cons v us =>
      obtain rfl := Option.some.inj hu
      have hword := hnext v us rfl
      exact ⟨Source.isKw_eq_false hword has, ne_of_isAnyKw hword rfl⟩
  have hother : read [] (first.1 :: second.1 :: (us ++ rest)) =
      read [] (second.1 :: (us ++ rest)) := by
    apply read_other (ne_of_isAnyKw first.2 rfl)
    · simp [startsCtes_of_not_body hbody]
    · exact readStatement?_of_not_read (isAnyKw_eq_false_of_disjoint first.2 (by decide)) [] _
  exact hother.trans ((hsecond.append hidle) [] rest)

/-! ## Behind a statement with a terminator -/

theorem read_afterStatement (h : EndsIdle usesMerge ts) (t : Token) (others : List Token) :
    read [] (afterStatement (t :: ts ++ .semicolon :: others)) = read [] others := by
  obtain ⟨left, hread, hleft⟩ := h.ends t (.semicolon :: others) (stopsBehind_semicolon _ others)
  have hafter : afterStatement (t :: ts ++ .semicolon :: others) =
      (cutStatement t 0 0 (ts ++ .semicolon :: others)).2 := rfl
  rw [hafter, hread]
  rcases hleft with rfl | ⟨-, rfl⟩
  · exact read_semicolon others
  · rfl

theorem afterStatement_of_passes (h : Passes false ts) (t : Token) (others : List Token) :
    afterStatement (t :: ts ++ .semicolon :: others) = .semicolon :: others := by
  have hcut : cutStatement t 0 0 (ts ++ .semicolon :: others) = _ := h t 0 _ (by simp)
  rw [(stopsBehind_semicolon (lastOf t ts) others).cutStatement_eq] at hcut
  exact congrArg Prod.snd hcut

end Body

/-! ## Clauses -/

open Body

variable {us : List Token} {usesMerge : Bool}

theorem Join.endsIdle_append (j : Join) (hus : EndsIdle usesMerge us) :
    EndsIdle (j.usesMerge || usesMerge) (j.tokens ++ us) := by
  have hrest : ∀ k, EndsIdle k us → EndsIdle k (j.join.1 :: j.source.1 ++ us) := fun _ hus =>
    hus.quiet_append ((IsQuiet.keyword j.join (by decide)).append (.phrase j.source))
  cases hmerge : j.usesMerge with
  | false => exact hus.quiet_append (Join.isQuiet_tokens hmerge)
  | true =>
    rw [Join.usesMerge, Option.any_eq_true] at hmerge
    obtain ⟨word, hhint, hword⟩ := hmerge
    have hwords : IsQuiet (j.words.map (·.1)) := by
      rw [List.map_eq_flatMap]
      exact .flatMap fun word _ => .keyword word (by decide)
    have hends := ((hrest _ hus).merge_cons ⟨word.1, hword⟩).quiet_append hwords
    simpa [Join.tokens, hhint] using hends

theorem FromClause.endsIdle_append (c : FromClause) (hus : EndsIdle usesMerge us) :
    EndsIdle (c.joins.any Join.usesMerge || usesMerge) (c.tokens ++ us) := by
  have hjoins : ∀ joins : List Join,
      EndsIdle (joins.any Join.usesMerge || usesMerge) (joins.flatMap Join.tokens ++ us) := by
    intro joins
    induction joins with
    | nil => exact hus
    | cons j joins ih =>
      rw [List.flatMap_cons, List.any_cons, List.append_assoc, Bool.or_assoc]
      exact j.endsIdle_append ih
  rw [FromClause.tokens, List.append_assoc]
  exact (hjoins c.joins).quiet_append ((IsQuiet.keyword c.keyword (by decide)).append
    (.phrase c.sources))

/-- The number of rows to fetch starts no statement. -/
def OrderBy.FetchesIdle (o : OrderBy) : Prop :=
  ∀ p ∈ o.paging, ∀ f ∈ p.fetch, HoldsNoStatement f.amount.1

theorem OrderBy.fetchesIdle_none : ∀ o ∈ (none : Option OrderBy), o.FetchesIdle := by
  simp

theorem Fetch.endsIdle_append
    {f : Fetch} (h : HoldsNoStatement f.amount.1) (hus : EndsIdle usesMerge us)
    (hidle : IsIdle us) : EndsIdle usesMerge (f.tokens ++ us) := by
  have hquiet : IsQuiet (f.next.1 :: f.amount.1 ++ [f.rows.1, f.only.1]) :=
    ((IsQuiet.keyword f.next (by decide)).append (.phrase f.amount)).append
      ((IsQuiet.keyword f.rows (by decide)).append (IsQuiet.keyword f.only (by decide)))
  have hamount : IsIdle f.amount.1 :=
    isIdle_of_holdsNoStatement (closes_of_isBalanced (IsQuiet.phrase f.amount).balanced) h
  have hrows : IsIdle [f.rows.1, f.only.1] :=
    (isIdle_keyword f.rows (by decide)).append (isIdle_keyword f.only (by decide))
  have hall : IsIdle (f.tokens ++ us) :=
    ((((isIdle_keyword f.keyword (by decide)).append (isIdle_keyword f.next (by decide))).append
      hamount).append hrows).append hidle
  exact (hus.quiet_append hquiet).idle_cons f.keyword (by decide) hall

theorem OrderBy.endsIdle_append
    {o : OrderBy} (h : o.FetchesIdle) (hus : EndsIdle usesMerge us) (hidle : IsIdle us) :
    EndsIdle usesMerge (o.tokens ++ us) := by
  have hpaging : EndsIdle usesMerge (o.paging.elim [] Paging.tokens ++ us) := by
    cases hp : o.paging with
    | none => exact hus
    | some p =>
      have hfetch : EndsIdle usesMerge (p.fetch.elim [] Fetch.tokens ++ us) := by
        cases hf : p.fetch with
        | none => exact hus
        | some f => exact Fetch.endsIdle_append (h p hp f hf) hus hidle
      have hquiet : IsQuiet (p.keyword.1 :: p.amount.1 ++ [p.rows.1]) :=
        ((IsQuiet.keyword p.keyword (by decide)).append (.phrase p.amount)).append
          (IsQuiet.keyword p.rows (by decide))
      have hends := hfetch.quiet_append hquiet
      simpa [Paging.tokens] using hends
  have hkeys : IsQuiet (o.order.1 :: o.byWord.1 :: o.keys.1) :=
    (IsQuiet.keyword o.order (by decide)).append
      ((IsQuiet.keyword o.byWord (by decide)).append (.phrase o.keys))
  rw [OrderBy.tokens, List.append_assoc]
  exact hpaging.quiet_append hkeys

end SqlSnapshot
