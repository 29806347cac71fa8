import SqlSnapshot.Proofs.Definition.NestedSelect

/-!
# `FOR JSON` and the rest of a select

`FOR JSON` stands at the end of a select.  Its first word ends the select list and the clause
`FROM`, and none of its words is one of those for which the clauses are searched, so that a select
is read with it as without it, except for the options.
-/

namespace SqlSnapshot

open Token

/-! ## Grammar -/

inductive JsonOption where
  /-- `ROOT`, which may have a name in parentheses. -/
  | root (keyword : Keyword ["ROOT"]) (name : Option String)
  | withoutArrayWrapper (keyword : Keyword ["WITHOUT_ARRAY_WRAPPER"])
  | includeNullValues (keyword : Keyword ["INCLUDE_NULL_VALUES"])

/-- `FOR JSON` with its options in their order, in which one may stand several times. -/
structure ForJson where
  forWord : Keyword ["FOR"]
  json : Keyword ["JSON"]
  mode : Keyword ["PATH", "AUTO"]
  options : List JsonOption

namespace JsonOption

def tokens : JsonOption → List Token
  | .root keyword none => [keyword.1]
  | .root keyword (some name) => [keyword.1, .lparen, .str name, .rparen]
  | .withoutArrayWrapper keyword => [keyword.1]
  | .includeNullValues keyword => [keyword.1]

/-- The name that a `ROOT` gives to the root. -/
def rootName? : JsonOption → Option String
  | .root _ name => some (name.getD "root")
  | _ => none

def isWithoutArrayWrapper : JsonOption → Bool
  | .withoutArrayWrapper _ => true
  | _ => false

def isIncludeNullValues : JsonOption → Bool
  | .includeNullValues _ => true
  | _ => false

end JsonOption

namespace ForJson

def optionTokens (options : List JsonOption) : List Token :=
  options.flatMap fun option => .comma :: option.tokens

def tokens (f : ForJson) : List Token :=
  f.forWord.1 :: f.json.1 :: f.mode.1 :: optionTokens f.options

/-- What the options come to, wherever they stand; of several roots the last counts. -/
def meaning (f : ForJson) : JsonOptions where
  array := !f.options.any (·.isWithoutArrayWrapper)
  root := (f.options.filterMap (·.rootName?)).getLast?
  includeNullValues := f.options.any (·.isIncludeNullValues)

end ForJson

/-! ## Options -/

/-- The options after one more. -/
def JsonOptions.with (o : JsonOptions) : JsonOption → JsonOptions
  | .root _ name => { o with root := some (name.getD "root") }
  | .withoutArrayWrapper _ => { o with array := false }
  | .includeNullValues _ => { o with includeNullValues := true }

theorem foldl_with (options : List JsonOption) (o : JsonOptions) :
    options.foldl JsonOptions.with o = {
      array := o.array && !options.any (·.isWithoutArrayWrapper)
      root := (options.filterMap (·.rootName?)).getLast?.or o.root
      includeNullValues := o.includeNullValues || options.any (·.isIncludeNullValues) } := by
  induction options generalizing o with
  | nil => simp
  | cons option options ih =>
    rw [List.foldl_cons, ih]
    cases option <;>
      simp [JsonOptions.with, JsonOption.isWithoutArrayWrapper, JsonOption.isIncludeNullValues,
        JsonOption.rootName?, List.getLast?_cons]

namespace Select

variable {depth : Nat} {ts us rest clauses : List Token} {o : JsonOptions}

theorem readJsonOptions_comma (o : JsonOptions) (ts : List Token) :
    readJsonOptions o (.comma :: ts) = readJsonOptions o ts := by
  rw [readJsonOptions]
  simp [isKw, isAnyKw]

theorem readJsonOptions_mode (mode : Keyword ["PATH", "AUTO"]) (o : JsonOptions) (ts : List Token) :
    readJsonOptions o (mode.1 :: ts) = readJsonOptions o ts := by
  have hroot : mode.1.isKw "ROOT" = false := isAnyKw_eq_false_of_disjoint mode.2 (by decide)
  have harray : mode.1.isKw "WITHOUT_ARRAY_WRAPPER" = false :=
    isAnyKw_eq_false_of_disjoint mode.2 (by decide)
  have hnull : mode.1.isKw "INCLUDE_NULL_VALUES" = false :=
    isAnyKw_eq_false_of_disjoint mode.2 (by decide)
  rw [readJsonOptions, if_neg (by simp [hroot]), if_neg (by simp [harray]),
    if_neg (by simp [hnull]), if_pos (.inl mode.2)]

theorem readRoot_of_not_startsWithParen (h : startsWithParen ts = false) :
    readRoot ts = ("root", ts) := by
  cases ts with
  | nil => rfl
  | cons t ts =>
    cases t with
    | lparen => cases h
    | _ => rfl

theorem readJsonOptions_tokens (option : JsonOption) (o : JsonOptions)
    (h : startsWithParen rest = false) :
    readJsonOptions o (option.tokens ++ rest) = readJsonOptions (o.with option) rest := by
  cases option with
  | root keyword name =>
    have hword : keyword.1.isKw "ROOT" = true := keyword.2
    cases name with
    | none =>
      rw [JsonOption.tokens, List.singleton_append, readJsonOptions, if_pos hword,
        readRoot_of_not_startsWithParen h]
      rfl
    | some name =>
      rw [JsonOption.tokens, List.cons_append, readJsonOptions, if_pos hword]
      rfl
  | withoutArrayWrapper keyword =>
    have hkeyword : keyword.1.isKw "WITHOUT_ARRAY_WRAPPER" = true := keyword.2
    have hroot : keyword.1.isKw "ROOT" = false := isAnyKw_eq_false_of_disjoint keyword.2 (by decide)
    rw [JsonOption.tokens, List.singleton_append, readJsonOptions, if_neg (by simp [hroot]),
      if_pos hkeyword]
    rfl
  | includeNullValues keyword =>
    have hroot : keyword.1.isKw "ROOT" = false := isAnyKw_eq_false_of_disjoint keyword.2 (by decide)
    have harray : keyword.1.isKw "WITHOUT_ARRAY_WRAPPER" = false :=
      isAnyKw_eq_false_of_disjoint keyword.2 (by decide)
    have hkeyword : keyword.1.isKw "INCLUDE_NULL_VALUES" = true := keyword.2
    rw [JsonOption.tokens, List.singleton_append, readJsonOptions, if_neg (by simp [hroot]),
      if_neg (by simp [harray]), if_pos hkeyword]
    rfl

theorem readJsonOptions_optionTokens (options : List JsonOption) (o : JsonOptions) :
    readJsonOptions o (ForJson.optionTokens options) = options.foldl JsonOptions.with o := by
  induction options generalizing o with
  | nil =>
    rw [ForJson.optionTokens, List.flatMap_nil, readJsonOptions]
    rfl
  | cons option options ih =>
    have hcomma : startsWithParen (ForJson.optionTokens options) = false := by
      cases options <;> rfl
    rw [ForJson.optionTokens, List.flatMap_cons, List.cons_append, readJsonOptions_comma,
      ← ForJson.optionTokens, readJsonOptions_tokens option o hcomma, ih, List.foldl_cons]

theorem readForJson?_tokens (f : ForJson) : readForJson? 0 f.tokens = some f.meaning := by
  have hjson :
      startsWithKw "JSON" (f.json.1 :: f.mode.1 :: ForJson.optionTokens f.options) = true :=
    f.json.2
  rw [ForJson.tokens, readForJson?, if_pos ⟨rfl, f.forWord.2, hjson⟩, List.drop_one, List.tail_cons,
    readJsonOptions_mode, readJsonOptions_optionTokens, foldl_with]
  simp [ForJson.meaning]

theorem readForJson?_append_of_avoids
    (h : ∀ t ∈ outside depth ts, t.isKw "FOR" = false) (hcloses : depthAfterAll depth ts = 0)
    (us : List Token) : readForJson? depth (ts ++ us) = readForJson? 0 us := by
  induction ts generalizing depth with
  | nil =>
    obtain rfl : depth = 0 := hcloses
    rfl
  | cons t ts ih =>
    rw [outside] at h
    rw [List.cons_append, readForJson?]
    split at h
    · rw [List.forall_mem_cons] at h
      rw [if_neg (by simp [h.1])]
      exact ih h.2 hcloses
    · rename_i hdepth
      rw [if_neg (fun hfor => hdepth hfor.1)]
      exact ih h hcloses

/-! ## Parts of the select -/

theorem startsWithKw_for (f : ForJson) : startsWithKw "FOR" f.tokens = true := f.forWord.2

theorem not_startsWithKw_of_for
    {keyword : String} (hus : startsWithKw "FOR" us = true) (hkeyword : keyword ≠ "FOR") :
    startsWithKw keyword us = false := by
  cases us with
  | nil => rfl
  | cons u us => exact isAnyKw_eq_false_of_disjoint hus (by simpa using hkeyword.symm)

/-- What the skip goes over leaves no parenthesis open and, if something of the list is left, it is
the same with more tokens after the list, from a `FOR` on. -/
structure SkipsFront (skip : Token → List Token → Token × List Token) : Prop where
  nil : ∀ prev, (skip prev []).2 = []
  append : ∀ prev ts us, Closes ts → (skip prev ts).2 ≠ [] → startsWithKw "FOR" us = true →
    skip prev (ts ++ us) = ((skip prev ts).1, (skip prev ts).2 ++ us) ∧
      ∃ front, Closes front ∧ ts = front ++ (skip prev ts).2

theorem SkipsFront.comp {first second : Token → List Token → Token × List Token}
    (hfirst : SkipsFront first) (hsecond : SkipsFront second) :
    SkipsFront fun prev ts => second (first prev ts).1 (first prev ts).2 := by
  constructor
  · intro prev
    rw [hfirst.nil, hsecond.nil]
  · intro prev ts us hcloses hrest hus
    have hleft : (first prev ts).2 ≠ [] := by
      intro hempty
      rw [hempty] at hrest
      exact hrest (hsecond.nil _)
    obtain ⟨happend, front, hfront, hts⟩ := hfirst.append prev ts us hcloses hleft hus
    have hcloses' : Closes (first prev ts).2 := hcloses.of_suffix ⟨front, hts.symm⟩
    obtain ⟨happend', back, hback, hts'⟩ := hsecond.append _ _ us hcloses' hrest hus
    refine ⟨by rw [happend, happend'], front ++ back, hfront.append hback, ?_⟩
    rw [List.append_assoc, ← hts', ← hts]

theorem closes_of_skipGroup? {after : List Token} (h : skipGroup? ts = some after) :
    ∃ front, Closes front ∧ ts = front ++ after := by
  unfold skipGroup? at h
  split at h
  · obtain ⟨⟨inner, rest⟩, hclose, rfl⟩ := Option.map_eq_some_iff.mp h
    have hfront : Closes (.lparen :: (inner ++ [.rparen])) := depthAfterAll_closeParen? hclose
    refine ⟨_, hfront, ?_⟩
    rw [closeParen?_append hclose]
    simp
  · cases h

theorem closes_singleton {t : Token} (h : t ≠ .lparen) : Closes [t] := by
  cases t with
  | lparen => exact absurd rfl h
  | _ => rfl

theorem skipTopAmount_of_ne {t : Token} (h : t ≠ .lparen) (prev : Token) (ts : List Token) :
    skipTopAmount prev (t :: ts) = (t, ts) := by
  cases t with
  | lparen => exact absurd rfl h
  | _ => rfl

theorem skipsFront_topAmount : SkipsFront skipTopAmount where
  nil _ := rfl
  append prev ts us hcloses hrest hus := by
    cases ts with
    | nil => exact absurd rfl hrest
    | cons t ts =>
      by_cases hparen : t = .lparen
      · obtain ⟨after, hgroup⟩ := exists_skipGroup? hcloses (by rw [hparen]; rfl)
        rw [skipTopAmount, skipTopAmount, skipGroup?_append_of_eq_some hgroup, hgroup]
        exact ⟨rfl, closes_of_skipGroup? hgroup⟩
      · rw [List.cons_append, skipTopAmount_of_ne hparen, skipTopAmount_of_ne hparen]
        exact ⟨rfl, [t], closes_singleton hparen, rfl⟩

theorem skipsFront_percent : SkipsFront skipPercent where
  nil _ := rfl
  append prev ts us hcloses hrest hus := by
    cases ts with
    | nil => exact absurd rfl hrest
    | cons t ts =>
      have hsame : startsWithKw "PERCENT" (t :: ts ++ us) = startsWithKw "PERCENT" (t :: ts) := rfl
      unfold skipPercent at hrest ⊢
      rw [hsame]
      split
      · rename_i hpercent
        exact ⟨rfl, [t], depthAfter_of_isAnyKw hpercent 0, rfl⟩
      · exact ⟨rfl, [], rfl, rfl⟩

theorem skipsFront_ties : SkipsFront skipTies where
  nil _ := rfl
  append prev ts us hcloses hrest hus := by
    match ts with
    | [] => exact absurd rfl hrest
    | [t] =>
      have hties : startsWithKw "TIES" us = false := not_startsWithKw_of_for hus (by decide)
      have halone : skipTies prev [t] = (prev, [t]) := if_neg (by simp [startsWithKw])
      have happended : skipTies prev (t :: us) = (prev, t :: us) := if_neg (by simp [hties])
      rw [halone]
      exact ⟨happended, [], rfl, rfl⟩
    | t :: u :: ts =>
      cases hwords : startsWithKw "WITH" [t] && startsWithKw "TIES" [u] with
      | false =>
        have hstay : ∀ rest, skipTies prev (t :: u :: rest) = (prev, t :: u :: rest) :=
          fun rest => if_neg (ne_true_of_eq_false hwords)
        rw [hstay, List.cons_append, List.cons_append, hstay]
        exact ⟨rfl, [], rfl, rfl⟩
      | true =>
        have hskip : ∀ rest, skipTies prev (t :: u :: rest) = (u, rest) := fun rest => if_pos hwords
        rw [hskip, List.cons_append, List.cons_append, hskip]
        rw [Bool.and_eq_true] at hwords
        refine ⟨rfl, [t, u], ?_, rfl⟩
        rw [Closes, depthAfterAll_cons, depthAfter_of_isAnyKw hwords.1]
        exact depthAfter_of_isAnyKw hwords.2 0

theorem skipsFront_top : SkipsFront skipTop :=
  (skipsFront_topAmount.comp skipsFront_percent).comp skipsFront_ties

theorem skipModifiers_append
    (prev : Token) (hcloses : Closes ts) (hrest : (skipModifiers prev ts).2 ≠ [])
    (hus : startsWithKw "FOR" us = true) :
    skipModifiers prev (ts ++ us) =
        ((skipModifiers prev ts).1, (skipModifiers prev ts).2 ++ us) ∧
      ∃ front, Closes front ∧ ts = front ++ (skipModifiers prev ts).2 := by
  fun_induction skipModifiers prev ts with
  | case1 => exact absurd rfl hrest
  | case2 prev t ts hquantifier ih =>
    obtain ⟨happend, front, hfront, hts⟩ := ih hcloses.tail hrest
    refine ⟨?_, t :: front, ?_, ?_⟩
    · rw [List.cons_append, skipModifiers, if_pos hquantifier, happend]
    · rw [Closes, depthAfterAll_cons, depthAfter_of_isAnyKw hquantifier]
      exact hfront
    · exact congrArg (t :: ·) hts
  | case3 prev t ts hquantifier htop hlength ih =>
    have hskipped : (skipTop t ts).2 ≠ [] := by
      intro hempty
      rw [hempty, skipModifiers] at hrest
      exact hrest rfl
    obtain ⟨happend, front, hfront, hts⟩ :=
      skipsFront_top.append t ts us hcloses.tail hskipped hus
    obtain ⟨happend', back, hback, hts'⟩ := ih (hcloses.tail.of_suffix ⟨front, hts.symm⟩) hrest
    refine ⟨?_, t :: (front ++ back), ?_, ?_⟩
    · rw [List.cons_append, skipModifiers, if_neg hquantifier, if_pos htop, happend, happend']
    · rw [Closes, depthAfterAll_cons, depthAfter_of_isAnyKw htop]
      exact hfront.append hback
    · rw [List.cons_append, List.append_assoc, ← hts', ← hts]
  | case4 prev t ts hquantifier htop =>
    refine ⟨?_, [], rfl, rfl⟩
    rw [List.cons_append, skipModifiers, if_neg hquantifier, if_neg htop]

/-- The select list ends at `FOR` at the latest. -/
theorem cutList_append
    (prev : Token) (hcloses : depthAfterAll depth ts = 0) (hus : startsWithKw "FOR" us = true) :
    cutList prev depth (ts ++ us) =
        ((cutList prev depth ts).1, (cutList prev depth ts).2 ++ us) ∧
      depthAfterAll depth (cutList prev depth ts).1 = 0 ∧
      ts = (cutList prev depth ts).1 ++ (cutList prev depth ts).2 := by
  induction ts generalizing depth prev with
  | nil =>
    obtain rfl : depth = 0 := hcloses
    refine ⟨?_, rfl, rfl⟩
    cases us with
    | nil => rfl
    | cons u us =>
      have hend : u.isAnyKw listEnd = true := isAnyKw_of_subset hus (by decide)
      have hgroup : u.isKw "GROUP" = false := isAnyKw_eq_false_of_disjoint hus (by decide)
      have hcut : cutList prev 0 (u :: us) = ([], u :: us) := by
        rw [cutList, if_pos ⟨rfl, hend, by simp [hgroup]⟩]
      exact hcut
  | cons t ts ih =>
    obtain ⟨happend, hdepth, hts⟩ := ih t hcloses
    rw [List.cons_append, cutList, cutList]
    split
    · rename_i hcut
      exact ⟨rfl, hcut.1, rfl⟩
    · rw [happend]
      exact ⟨rfl, hdepth, congrArg (t :: ·) hts⟩

theorem listAndClauses_cons (t : Token) (ts : List Token) :
    listAndClauses (t :: ts) = cutList (skipModifiers t ts).1 0 (skipModifiers t ts).2 := rfl

/-- With `FOR JSON` at its end, a select has the same list and `FOR JSON` after its clauses. -/
theorem listAndClauses_append
    (hcloses : Closes ts) (hlist : (listAndClauses ts).1 ≠ [])
    (hselect : startsWithKw "SELECT" ts = true) (hus : startsWithKw "FOR" us = true) :
    listAndClauses (ts ++ us) = ((listAndClauses ts).1, (listAndClauses ts).2 ++ us) ∧
      ∃ front, Closes front ∧ ts = front ++ (listAndClauses ts).2 := by
  cases ts with
  | nil => exact absurd rfl hlist
  | cons t ts =>
    have hskipped : (skipModifiers t ts).2 ≠ [] := by
      intro hempty
      rw [listAndClauses_cons, hempty] at hlist
      exact hlist rfl
    obtain ⟨happend, front, hfront, hts⟩ := skipModifiers_append t hcloses.tail hskipped hus
    obtain ⟨hcut, hitems, hrest⟩ := cutList_append (skipModifiers t ts).1
      (hcloses.tail.of_suffix ⟨front, hts.symm⟩) hus
    refine ⟨?_, t :: (front ++ (listAndClauses (t :: ts)).1), ?_, ?_⟩
    · rw [List.cons_append, listAndClauses_cons, happend]
      exact hcut
    · rw [Closes, depthAfterAll_cons, depthAfter_of_isAnyKw hselect]
      exact hfront.append hitems
    · rw [List.cons_append, List.append_assoc]
      exact congrArg (t :: ·) (hts.trans (congrArg (front ++ ·) hrest))

/-! ## The select as a whole -/

theorem mem_of_mem_outside {t : Token} (h : t ∈ outside depth ts) : t ∈ ts := by
  induction ts generalizing depth with
  | nil => exact h
  | cons u ts ih =>
    rw [outside] at h
    split at h
    · rw [List.mem_cons] at h
      exact List.mem_cons.mpr (h.imp_right ih)
    · exact List.mem_cons_of_mem u (ih h)

/-- The keywords for which the clauses of a select are searched. -/
def clauseMarks : List String :=
  ["FROM", "INTO"] ++ setOperators

theorem isAnyKw_clauseMarks_eq_false (f : ForJson) :
    ∀ t ∈ f.tokens, t.isAnyKw clauseMarks = false := by
  have hkeyword : ∀ {keywords : List String} (k : Keyword keywords),
      (∀ word ∈ keywords, word ∉ clauseMarks) → k.1.isAnyKw clauseMarks = false :=
    fun k hother => isAnyKw_eq_false_of_disjoint k.2 hother
  have hoption : ∀ option : JsonOption, ∀ t ∈ option.tokens, t.isAnyKw clauseMarks = false := by
    intro option
    match option with
    | .root keyword none => simpa [JsonOption.tokens] using hkeyword keyword (by decide)
    | .root keyword (some name) =>
      simpa [JsonOption.tokens, isAnyKw] using hkeyword keyword (by decide)
    | .withoutArrayWrapper keyword => simpa [JsonOption.tokens] using hkeyword keyword (by decide)
    | .includeNullValues keyword => simpa [JsonOption.tokens] using hkeyword keyword (by decide)
  rw [ForJson.tokens, List.forall_mem_cons, List.forall_mem_cons, List.forall_mem_cons]
  refine ⟨hkeyword f.forWord (by decide), hkeyword f.json (by decide),
    hkeyword f.mode (by decide), ?_⟩
  intro t ht
  obtain ⟨option, -, ht⟩ := List.mem_flatMap.mp ht
  rcases List.mem_cons.mp ht with rfl | ht
  · rfl
  · exact hoption option t ht

theorem fromKw_tokens {keywords : List String} (f : ForJson) (h : ∀ k ∈ keywords, k ∈ clauseMarks) :
    fromKw keywords f.tokens = [] :=
  snd_cutAtKw_of_forall_outside fun t ht =>
    isAnyKw_eq_false_of_subset (isAnyKw_clauseMarks_eq_false f t (mem_of_mem_outside ht)) h

theorem upToKw_of_startsWithAnyKw
    {keywords : List String} (h : startsWithAnyKw keywords ts = true) :
    upToKw keywords ts = [] := by
  cases ts with
  | nil => rfl
  | cons t ts => rw [upToKw, cutAtKw, if_pos ⟨rfl, h⟩]

variable {ctes : List String} {scope : Scope}

theorem sourcesOf_append (hcloses : Closes clauses) (f : ForJson) :
    sourcesOf ctes (clauses ++ f.tokens) = sourcesOf ctes clauses := by
  have hend : upToKw fromEnd f.tokens = [] :=
    upToKw_of_startsWithAnyKw (isAnyKw_of_subset f.forWord.2 (by decide))
  unfold sourcesOf
  cases hfrom : fromKw ["FROM"] clauses with
  | nil => rw [fromKw_append_of_eq_nil hfrom hcloses, fromKw_tokens f (by decide)]
  | cons t ts =>
    have hcloses' : Closes (t :: ts) := hcloses.of_suffix (hfrom ▸ isSuffix_fromKw ["FROM"] clauses)
    have hsources : upToKw fromEnd (ts ++ f.tokens) = upToKw fromEnd ts := by
      by_cases hrest : fromKw fromEnd ts = []
      · rw [upToKw_append_of_eq_nil hrest hcloses'.tail, hend, upToKw_of_eq_nil hrest,
          List.append_nil]
      · exact upToKw_append_of_ne_nil hrest f.tokens
    rw [fromKw_append_of_ne_nil (by simp [hfrom]), hfrom, List.cons_append]
    dsimp only
    rw [hsources]

theorem branchSources_append (hcloses : Closes clauses) (f : ForJson) :
    sourcesOf ctes (upToKw setOperators (clauses ++ f.tokens)) =
      sourcesOf ctes (upToKw setOperators clauses) := by
  by_cases hbranch : fromKw setOperators clauses = []
  · rw [upToKw_append_of_eq_nil hbranch hcloses, upToKw_of_eq_nil hbranch,
      upToKw_of_eq_nil (fromKw_tokens f (by decide)), sourcesOf_append hcloses]
  · rw [upToKw_append_of_ne_nil hbranch]

theorem isEmpty_fromKw_into_append (hcloses : Closes clauses) (f : ForJson) :
    (fromKw ["INTO"] (upToKw setOperators (clauses ++ f.tokens))).isEmpty =
      (fromKw ["INTO"] (upToKw setOperators clauses)).isEmpty := by
  by_cases hbranch : fromKw setOperators clauses = []
  · rw [upToKw_append_of_eq_nil hbranch hcloses, upToKw_of_eq_nil hbranch,
      upToKw_of_eq_nil (fromKw_tokens f (by decide))]
    cases hinto : fromKw ["INTO"] clauses with
    | nil => rw [fromKw_append_of_eq_nil hinto hcloses, fromKw_tokens f (by decide)]
    | cons t ts =>
      rw [fromKw_append_of_ne_nil (by simp [hinto]), hinto]
      rfl
  · rw [upToKw_append_of_ne_nil hbranch]

/-- `FOR JSON` gives a select its options and leaves everything else that is read from it. -/
theorem read_forJson
    (hselect : startsWithKw "SELECT" ts = true) (hbalanced : isBalanced ts = true)
    (hlist : checkList ts = .ok ()) (hassigns : isVariableAssignment (listAndClauses ts).1 = false)
    (hfor : Avoids ["FOR"] ts) (f : ForJson) (ctes : List String) (scope : Scope) :
    read ctes scope (ts ++ f.tokens) = { read ctes scope ts with json := some f.meaning } := by
  have hnonempty : (listAndClauses ts).1 ≠ [] := by
    intro hempty
    rw [checkList, hempty] at hlist
    cases hlist
  obtain ⟨hparts, front, hfront, hts⟩ := listAndClauses_append (closes_of_isBalanced hbalanced)
    hnonempty hselect (startsWithKw_for f)
  have hcloses : Closes (listAndClauses ts).2 :=
    (closes_of_isBalanced hbalanced).of_suffix ⟨front, hts.symm⟩
  have hquiet : Avoids ["FOR"] (listAndClauses ts).2 := by
    rw [hts] at hfor
    exact hfor.of_append hfront
  have hscope : innerScope ctes scope (ts ++ f.tokens) = innerScope ctes scope ts := by
    rw [innerScope, innerScope, hparts, branchSources_append hcloses]
  have hitems : readItems ctes scope (ts ++ f.tokens) = readItems ctes scope ts := by
    rw [readItems, readItems, hscope, hparts]
  have hwith : read ctes scope (ts ++ f.tokens) = _ := read_of_parts hparts hassigns ctes scope
  have hsame : listAndClauses ts = ((listAndClauses ts).1, (listAndClauses ts).2) := rfl
  have hwithout : read ctes scope ts = _ := read_of_parts hsame hassigns ctes scope
  rw [hwith, hwithout, hitems, readForJson?_append_of_avoids hquiet hcloses,
    readForJson?_tokens, isEmpty_fromKw_into_append hcloses]

end Select

/-- `for json path, Root('a'), WITHOUT_ARRAY_WRAPPER, ROOT` -/
def ForJson.sample : ForJson where
  forWord := ⟨.word "for" false, by decide⟩
  json := ⟨.word "json" false, by decide⟩
  mode := ⟨.word "path" false, by decide⟩
  options := [
    .root ⟨.word "Root" false, by decide⟩ (some "a"),
    .withoutArrayWrapper ⟨.word "WITHOUT_ARRAY_WRAPPER" false, by decide⟩,
    .root ⟨.word "ROOT" false, by decide⟩ none]

/-- A select with `WITHIN GROUP` in its list, and a second branch with `FOR JSON` in parentheses. -/
def Select.branches : List Token :=
  [.word "SELECT" false, .word "STRING_AGG" false, .lparen, .word "Name" false, .comma, .str ",",
   .rparen, .word "WITHIN" false, .word "GROUP" false, .lparen, .word "ORDER" false,
   .word "BY" false, .word "Name" false, .rparen, .word "FROM" false, .word "Users" false,
   .word "UNION" false, .word "SELECT" false, .lparen, .word "SELECT" false, .num "1",
   .word "FOR" false, .word "JSON" false, .word "PATH" false, .rparen]

theorem Select.read_forJson_branches :
    startsWithKw "SELECT" branches = true ∧ isBalanced branches = true ∧
    checkList branches = .ok () ∧ isVariableAssignment (listAndClauses branches).1 = false ∧
    Avoids ["FOR"] branches ∧
    read [] [] (branches ++ ForJson.sample.tokens) =
      { read [] [] branches with
        json := some { array := false, root := some "root", includeNullValues := false } } := by
  have hparts : listAndClauses branches = (branches.tail.take 13, branches.drop 14) := by
    rw [branches, listAndClauses_cons, skipModifiers_of_not (by decide)]
    rfl
  have hlist : checkList branches = .ok () := by
    rw [checkList, hparts]
    rfl
  have hassigns : isVariableAssignment (listAndClauses branches).1 = false := by
    rw [hparts]
    rfl
  have hfor : Avoids ["FOR"] branches := by
    unfold Avoids
    decide
  have hselect : startsWithKw "SELECT" branches = true := by decide
  have hbalanced : isBalanced branches = true := by decide
  exact ⟨hselect, hbalanced, hlist, hassigns, hfor,
    read_forJson hselect hbalanced hlist hassigns hfor ForJson.sample [] []⟩

end SqlSnapshot
