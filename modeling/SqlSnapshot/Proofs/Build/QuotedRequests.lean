import SqlSnapshot.Proofs.Build.Selection
import SqlSnapshot.Proofs.Filter.Requests

/-!
# Requests by quoted names

A procedure can be asked for by its schema and name in square brackets.  The brackets keep a dot
inside them together with its name, but they do not keep the filter text from being cut at commas,
semicolons and blanks: a name with one of these inside comes apart, and its pieces ask for
procedures whose names have a bracket.
-/

namespace SqlSnapshot

/-! ## Brackets in lower case -/

namespace Text

theorem eq_bracket_of_mem_lowerChar
    {c : Char} (h : '[' ∈ lowerChar c) :
    c = '[' := by
  have himages : ∀ r ∈ lowerRuns, (0x5B : Int) < r.first + r.shift := by decide +kernel
  unfold lowerChar at h
  split at h
  · exact absurd h (by decide)
  · rename_i hc
    have hchar : '[' = Char.ofNat (shiftBy lowerRuns c.toNat) := List.mem_singleton.mp h
    have hcode : shiftBy lowerRuns c.toNat = 0x5B := by
      rcases toNat_ofNat_cases (shiftBy lowerRuns c.toNat) with hn | hzero
      · rw [← hn, ← hchar]
        rfl
      · rw [← hchar] at hzero
        exact absurd hzero (by decide)
    rcases shiftBy_cases lowerRuns c.toNat with hself | ⟨r, hr, hcovers, himage⟩
    · exact Char.ext (UInt32.toNat_inj.mp (hself.symm.trans hcode))
    · have hfirst := (Run.covers_iff.mp hcovers).1
      have hpositive := himages r hr
      omega

theorem bracket_mem_of_caseKey
    {s t : String} (h : caseKey s = caseKey t) (hs : '[' ∈ s.toList) :
    '[' ∈ t.toList := by
  have hkey : '[' ∈ caseKey t := by
    rw [← h]
    exact List.mem_flatMap.mpr ⟨'[', hs, by decide +kernel⟩
  obtain ⟨c, hc, hmem⟩ := List.mem_flatMap.mp hkey
  exact eq_bracket_of_mem_lowerChar hmem ▸ hc

theorem bracket_mem_of_sameAscii
    {s t : String} (h : sameAscii s t = true) (hs : '[' ∈ s.toList) :
    '[' ∈ t.toList := by
  have hkeys : s.toList.map Char.toLower = t.toList.map Char.toLower := beq_iff_eq.mp h
  have hmem : '[' ∈ t.toList.map Char.toLower := by
    rw [← hkeys]
    exact List.mem_map.mpr ⟨'[', hs, by decide⟩
  obtain ⟨c, hc, hlower⟩ := List.mem_map.mp hmem
  have heq : c = '[' := (toLower_eq_iff (by decide) (by decide)).mp hlower
  exact heq ▸ hc

/-- A text with a separator has what stands before the first one as a piece of its own. -/
theorem mem_pieces_of_separator
    {p : Char → Bool} {c : Char} {cs ds : List Char} (hne : cs ≠ []) (hcs : ∀ d ∈ cs, p d = false)
    (hc : p c = true) :
    cs ∈ pieces p (cs ++ c :: ds) := by
  rw [pieces, Path.splitBy_append_cons hc, List.filter_append, List.mem_append,
    Path.splitBy_of_not_mem hcs]
  exact Or.inl (List.mem_filter.mpr ⟨List.mem_singleton_self cs, by simpa using hne⟩)

end Text

/-! ## Quoted names as one token -/

/-- Neither a bracket nor a wildcard. -/
def IsQuotable (cs : List Char) : Prop :=
  ∀ c ∈ cs, c ≠ '[' ∧ c ≠ ']' ∧ c ≠ '*' ∧ c ≠ '?'

theorem IsQuotable.isBracketFree
    {cs : List Char} (h : IsQuotable cs) :
    Descriptor.IsBracketFree cs :=
  fun c hc => ⟨(h c hc).1, (h c hc).2.1⟩

namespace Descriptor

/-- The name in square brackets as it stands. -/
def bracketed (d : Descriptor) : String :=
  "[" ++ d.schema ++ "].[" ++ d.name ++ "]"

theorem toList_bracketed (d : Descriptor) :
    d.bracketed.toList =
      ('[' :: d.schema.toList ++ [']']) ++ '.' :: ('[' :: d.name.toList ++ [']']) := by
  simp [bracketed]

theorem parseQualified?_bracketed
    {d : Descriptor} (hschema : IsQuotable d.schema.toList) :
    parseQualified? d.bracketed = some d := by
  rw [parseQualified?, toList_bracketed,
    ((isTrimmed_bracketed _).append_dot (isTrimmed_bracketed _)).trimBoth_eq,
    splitQualified?_bracketed hschema.isBracketFree, Option.map_some]
  simp only [unbracket_bracketed, String.ofList_toList]

theorem isTrimmed_open
    {cs : List Char} (hblanks : ∀ c ∈ cs, Text.isBlank c = false) :
    Text.IsTrimmed ('[' :: cs) :=
  Text.isTrimmed_of_forall fun c hc => by
    rcases List.mem_cons.mp hc with rfl | hc
    · decide
    · exact hblanks c hc

theorem unbracket_open
    {cs : List Char} (hcs : IsQuotable cs) (hblanks : ∀ c ∈ cs, Text.isBlank c = false) :
    unbracket ('[' :: cs) = String.ofList ('[' :: cs) := by
  have hlast : cs.getLast? ≠ some ']' := fun h => (hcs ']' (List.mem_of_getLast? h)).2.1 rfl
  rw [unbracket, (isTrimmed_open hblanks).trimBoth_eq]
  simp [betweenBrackets?, hlast]

end Descriptor

/-! ## Tokens of quoted names -/

namespace NameFilter

/-- The character stands between tokens. -/
def separates (c : Char) : Bool :=
  c == ',' || c == ';' || Text.isBlank c

variable {o : Options} {d e : Descriptor}

theorem isBlank_of_not_separates
    {c : Char} (h : separates c = false) :
    Text.isBlank c = false := by
  simp only [separates, Bool.or_eq_false_iff] at h
  exact h.2

theorem tokens_eq (text : String) : tokens text = Text.pieces separates text.toList := rfl

/-- The whole of a quoted name is one token if no character in it separates. -/
theorem tokens_bracketed
    (hschema : ∀ c ∈ d.schema.toList, separates c = false)
    (hname : ∀ c ∈ d.name.toList, separates c = false) :
    tokens d.bracketed = [d.bracketed.toList] := by
  apply Text.pieces_of_not_mem
  · rw [Descriptor.toList_bracketed]
    simp
  · intro c hc
    rw [Descriptor.toList_bracketed] at hc
    simp only [List.mem_append, List.mem_cons, List.not_mem_nil, or_false] at hc
    rcases hc with ((rfl | hc) | rfl) | rfl | (rfl | hc) | rfl
    · decide
    · exact hschema c hc
    · decide
    · decide
    · decide
    · exact hname c hc
    · decide

theorem exists_first_separator
    {cs : List Char} (h : ∃ c ∈ cs, separates c = true) :
    ∃ before c after, cs = before ++ c :: after ∧ separates c = true ∧
      ∀ b ∈ before, separates b = false := by
  obtain ⟨c, hc⟩ := Option.isSome_iff_exists.mp (List.find?_isSome.mpr h)
  obtain ⟨hsep, before, after, rfl, hbefore⟩ := List.find?_eq_some_iff_append.mp hc
  exact ⟨before, c, after, rfl, hsep, fun b hb => by simpa using hbefore b hb⟩

/-- A token that ends within brackets names something with a bracket. -/
structure IsOpenToken (token : List Char) : Prop where
  plain : ∀ c ∈ token, c ≠ '*' ∧ c ≠ '?'
  bracket : '[' ∈ (Descriptor.parse (String.ofList token)).name.toList

theorem isOpenToken_of_schema
    {cs : List Char} (hcs : IsQuotable cs) (hsep : ∀ c ∈ cs, separates c = false) :
    IsOpenToken ('[' :: cs) where
  plain := by
    intro c hc
    rcases List.mem_cons.mp hc with rfl | hc
    · decide
    · exact (hcs c hc).2.2
  bracket := by
    have hblanks := fun c hc => isBlank_of_not_separates (hsep c hc)
    have hsplit : Descriptor.splitQualified? 0 ('[' :: cs) = none := by
      rw [Descriptor.splitQualified?, if_neg fun hc => absurd hc.1 (by decide)]
      simp only [if_true, Nat.zero_add]
      rw [Descriptor.splitQualified?_open hcs.isBracketFree (by decide)]
      rfl
    rw [Descriptor.parse, Descriptor.parseQualified?, String.toList_ofList,
      (Descriptor.isTrimmed_open hblanks).trimBoth_eq, hsplit, Option.map_none, Option.getD_none,
      Descriptor.unbracket_open hcs hblanks, String.toList_ofList]
    exact List.mem_cons_self

theorem isOpenToken_of_name
    {schema cs : List Char} (hschema : IsQuotable schema) (hcs : IsQuotable cs)
    (hsep : ∀ c ∈ cs, separates c = false) :
    IsOpenToken (('[' :: schema ++ [']']) ++ '.' :: '[' :: cs) where
  plain := by
    intro c hc
    simp only [List.mem_append, List.mem_cons, List.not_mem_nil, or_false] at hc
    rcases hc with ((rfl | hc) | rfl) | rfl | rfl | hc
    · decide
    · exact (hschema c hc).2.2
    · decide
    · decide
    · decide
    · exact (hcs c hc).2.2
  bracket := by
    have hblanks := fun c hc => isBlank_of_not_separates (hsep c hc)
    rw [Descriptor.parse, Descriptor.parseQualified?, String.toList_ofList,
      ((Descriptor.isTrimmed_bracketed schema).append_dot
        (Descriptor.isTrimmed_open hblanks)).trimBoth_eq,
      Descriptor.splitQualified?_bracketed hschema.isBracketFree, Option.map_some,
      Option.getD_some]
    dsimp only
    rw [Descriptor.unbracket_open hcs hblanks, String.toList_ofList]
    exact List.mem_cons_self

/-- A quoted name with a separator inside comes apart. -/
theorem exists_isOpenToken
    (hschema : IsQuotable d.schema.toList) (hname : IsQuotable d.name.toList)
    (h : ∃ c ∈ d.schema.toList ++ d.name.toList, separates c = true) :
    ∃ token ∈ tokens d.bracketed, IsOpenToken token := by
  rw [tokens_eq, Descriptor.toList_bracketed]
  by_cases hinside : ∃ c ∈ d.schema.toList, separates c = true
  · obtain ⟨before, c, after, heq, hc, hbefore⟩ := exists_first_separator hinside
    have hquotable : IsQuotable before := fun b hb =>
      hschema b (heq ▸ List.mem_append_left _ hb)
    refine ⟨'[' :: before, ?_, isOpenToken_of_schema hquotable hbefore⟩
    have htext : ('[' :: d.schema.toList ++ [']']) ++ '.' :: ('[' :: d.name.toList ++ [']']) =
        ('[' :: before) ++ c :: (after ++ ']' :: '.' :: ('[' :: d.name.toList ++ [']'])) := by
      simp [heq]
    rw [htext]
    refine Text.mem_pieces_of_separator (by simp) ?_ hc
    intro b hb
    rcases List.mem_cons.mp hb with rfl | hb
    · decide
    · exact hbefore b hb
  · have hseparated : ∀ c ∈ d.schema.toList, separates c = false := fun c hc =>
      Bool.eq_false_iff.mpr fun hsep => hinside ⟨c, hc, hsep⟩
    obtain ⟨c, hc, hsep⟩ := h
    have hname' : ∃ c ∈ d.name.toList, separates c = true := by
      rcases List.mem_append.mp hc with hc | hc
      · exact absurd ⟨c, hc, hsep⟩ hinside
      · exact ⟨c, hc, hsep⟩
    obtain ⟨before, c, after, heq, hc, hbefore⟩ := exists_first_separator hname'
    have hquotable : IsQuotable before := fun b hb => hname b (heq ▸ List.mem_append_left _ hb)
    refine ⟨_, ?_, isOpenToken_of_name hschema hquotable hbefore⟩
    have htext : ('[' :: d.schema.toList ++ [']']) ++ '.' :: ('[' :: d.name.toList ++ [']']) =
        (('[' :: d.schema.toList ++ [']']) ++ '.' :: '[' :: before) ++ c :: (after ++ [']']) := by
      simp [heq]
    rw [htext]
    refine Text.mem_pieces_of_separator (by simp) ?_ hc
    intro b hb
    simp only [List.mem_append, List.mem_cons, List.not_mem_nil, or_false] at hb
    rcases hb with ((rfl | hb) | rfl) | rfl | rfl | hb
    · decide
    · exact hseparated b hb
    · decide
    · decide
    · decide
    · exact hbefore b hb

/-- What an open token asks for is no procedure without a bracket in its name. -/
theorem IsOpenToken.not_accepts
    {token : List Char} (h : IsOpenToken token) (he : '[' ∉ e.name.toList) :
    (NamePattern.exactOf token).accepts e = false := by
  rw [Bool.eq_false_iff, NamePattern.exactOf]
  intro haccepts
  cases hqualified : (Descriptor.parseQualified? (String.ofList token)).isSome with
  | true =>
    rw [hqualified] at haccepts
    exact he (Text.bracket_mem_of_caseKey (Descriptor.same_iff_caseKey_eq.mp haccepts).2 h.bracket)
  | false =>
    rw [hqualified] at haccepts
    exact he (Text.bracket_mem_of_sameAscii haccepts h.bracket)

theorem patterns_bracketed
    (hschema : IsQuotable d.schema.toList) (hname : IsQuotable d.name.toList)
    (ho : o.procedures = some d.bracketed)
    (hsep : ∀ c ∈ d.schema.toList ++ d.name.toList, separates c = false) :
    (ofOptions o).patterns = [.exact d true] := by
  have htokens := tokens_bracketed (d := d) (fun c hc => hsep c (List.mem_append_left _ hc))
    fun c hc => hsep c (List.mem_append_right _ hc)
  have hplain : ∀ c ∈ d.bracketed.toList, c ≠ '*' ∧ c ≠ '?' := by
    intro c hc
    rw [Descriptor.toList_bracketed] at hc
    simp only [List.mem_append, List.mem_cons, List.not_mem_nil, or_false] at hc
    rcases hc with ((rfl | hc) | rfl) | rfl | (rfl | hc) | rfl
    · decide
    · exact (hschema c hc).2.2
    · decide
    · decide
    · decide
    · exact (hname c hc).2.2
    · decide
  simp only [ofOptions, ho, Option.map_some, Option.getD_some, htokens, List.filterMap_cons,
    List.filterMap_nil, NamePattern.ofToken?_of_no_wildcard hplain, String.ofList_toList,
    Descriptor.parse, Descriptor.parseQualified?_bracketed hschema, Option.isSome_some]

theorem missing_bracketed
    {procedures : List Descriptor} (hpatterns : (ofOptions o).patterns = [.exact d true])
    (hfound : ∃ e ∈ procedures, d.same e = true) :
    (ofOptions o).missing procedures = [] := by
  have hany : procedures.any (NamePattern.exact d true).accepts = true :=
    List.any_eq_true.mpr hfound
  have hnone : Descriptor.sortedDistinct [] = [] := by
    rw [Descriptor.sortedDistinct, sortedDistinctBy, List.mergeSort_nil]
    rfl
  simp [missing, hpatterns, hany, NamePattern.wanted?, hnone]

theorem missing_ne_nil_of_isOpenToken
    {token : List Char} (ho : o.procedures = some d.bracketed)
    (htoken : token ∈ tokens d.bracketed) (hopen : IsOpenToken token)
    {procedures : List Descriptor} (hnames : ∀ e ∈ procedures, '[' ∉ e.name.toList) :
    (ofOptions o).missing procedures ≠ [] := by
  have hany : (token.any fun c => c == '*' || c == '?') = false := by
    rw [List.any_eq_false]
    intro c hc
    simpa using hopen.plain c hc
  have hexact : token ∈ o.exactTokens := by
    simp only [Options.exactTokens, ho, Option.map_some, Option.getD_some, List.mem_filter, hany,
      Bool.not_false, and_true]
    exact htoken
  obtain ⟨e, ⟨he, -⟩, -⟩ := (lists_missing o procedures).complete _
    ⟨token, hexact, rfl, fun e he => hopen.not_accepts (hnames e he)⟩
  exact List.ne_nil_of_mem he

end NameFilter

namespace Build

open NameFilter

/-- A quoted name asks for the procedures that it names, and leaves nothing unfound where there is
one, exactly if no comma, semicolon or blank stands inside its brackets. -/
theorem bracketed_selects_iff
    {d : Descriptor} {o : Options}
    (hquotable : ∀ c ∈ d.schema.toList ++ d.name.toList, c ≠ '[' ∧ c ≠ ']' ∧ c ≠ '*' ∧ c ≠ '?')
    (ho : o.procedures = some ("[" ++ d.schema ++ "].[" ++ d.name ++ "]")) :
    (∀ c ∈ d.schema.toList ++ d.name.toList, c ≠ ',' ∧ c ≠ ';' ∧ Text.isBlank c = false) ↔
      (∀ e, (NameFilter.ofOptions o).accepts e =
        ((NameFilter.ofOptions o).allowsSchema e.schema && d.same e)) ∧
      ∀ env w found w', run (collect env o) w = (.ok found, w') →
        (∃ p ∈ env.catalog.rows, d.same p.descriptor = true) → found.decided .skip = [] := by
  have hschema : IsQuotable d.schema.toList := fun c hc => hquotable c (List.mem_append_left _ hc)
  have hname : IsQuotable d.name.toList := fun c hc => hquotable c (List.mem_append_right _ hc)
  have hseparates : (∀ c ∈ d.schema.toList ++ d.name.toList,
      c ≠ ',' ∧ c ≠ ';' ∧ Text.isBlank c = false) ↔
      ∀ c ∈ d.schema.toList ++ d.name.toList, separates c = false := by
    simp [separates, and_assoc]
  rw [hseparates]
  constructor
  · intro hsep
    have hpatterns := patterns_bracketed hschema hname ho hsep
    constructor
    · intro e
      rw [NameFilter.accepts, allowsName, hpatterns]
      simp [NamePattern.accepts]
    · intro env w found w' h hfound
      obtain ⟨p, hp, hsame⟩ := hfound
      rw [(describes_of_collect h).2.1, missing_bracketed hpatterns
        ⟨p.descriptor, List.mem_map_of_mem hp, hsame⟩]
      rfl
  · rintro ⟨-, hskip⟩ c hc
    by_contra hsep
    have hinside : ∃ c ∈ d.schema.toList ++ d.name.toList, separates c = true :=
      ⟨c, hc, by simpa using hsep⟩
    obtain ⟨token, htoken, hopen⟩ := exists_isOpenToken hschema hname hinside
    -- a catalog with nothing but the procedure
    let row : ProcedureRow := ⟨d.schema, d.name, 0, ⟨0, 0⟩⟩
    let catalog : Catalog := { procedures := [⟨row, none⟩] }
    obtain ⟨found, w', hrun, -⟩ :=
      succeeds_collect (Conditions.calm_calm catalog ⟨0, 0⟩) o default rfl
    have hnone := hskip _ _ found w' hrun ⟨row, List.mem_singleton_self row, Descriptor.same_refl d⟩
    have hmissing : (NameFilter.ofOptions o).missing [d] ≠ [] := by
      apply missing_ne_nil_of_isOpenToken ho htoken hopen
      intro e he hbracket
      rw [List.mem_singleton.mp he] at hbracket
      exact (hname '[' hbracket).1 rfl
    rw [(describes_of_collect hrun).2.1, List.map_eq_nil_iff] at hnone
    exact hmissing hnone

theorem bracketed_selects_iff_sample :
    let d : Descriptor := ⟨"sales", "Order.Get"⟩
    let o : Options := { projectRoot := "/p", procedures := some "[sales].[Order.Get]" }
    (∀ c ∈ d.schema.toList ++ d.name.toList, c ≠ '[' ∧ c ≠ ']' ∧ c ≠ '*' ∧ c ≠ '?') ∧
      o.procedures = some ("[" ++ d.schema ++ "].[" ++ d.name ++ "]") ∧
      (NameFilter.ofOptions o).accepts ⟨"SALES", "order.get"⟩ = true ∧
      (NameFilter.ofOptions o).accepts ⟨"sales", "Order"⟩ = false := by
  intro d o
  have hquotable : ∀ c ∈ d.schema.toList ++ d.name.toList,
      c ≠ '[' ∧ c ≠ ']' ∧ c ≠ '*' ∧ c ≠ '?' := Text.forall_mem_of_all (by decide)
  have ho : o.procedures = some ("[" ++ d.schema ++ "].[" ++ d.name ++ "]") := by decide +kernel
  obtain ⟨haccepts, -⟩ := (bracketed_selects_iff hquotable ho).mp
    (Text.forall_mem_of_all (by decide))
  refine ⟨hquotable, ho, ?_, ?_⟩
  · rw [haccepts]
    decide +kernel
  · rw [haccepts]
    decide +kernel

/-- A blank inside the brackets cuts the name in two, and the procedure is not found. -/
theorem bracketed_comes_apart :
    let d : Descriptor := ⟨"dbo", "My Proc"⟩
    let o : Options := { projectRoot := "/p", procedures := some "[dbo].[My Proc]" }
    let c : Catalog := { procedures := [⟨⟨"dbo", "My Proc", 1, ⟨0, 0⟩⟩, none⟩] }
    (∀ c ∈ d.schema.toList ++ d.name.toList, c ≠ '[' ∧ c ≠ ']' ∧ c ≠ '*' ∧ c ≠ '?') ∧
      o.procedures = some ("[" ++ d.schema ++ "].[" ++ d.name ++ "]") ∧
      (NameFilter.ofOptions o).accepts d = false ∧
      ∃ found w', run (collect (.calm c ⟨0, 0⟩) o) default = (.ok found, w') ∧
        ∃ e, e.same ⟨"dbo", "[My"⟩ = true ∧ .skipped e ∈ found.decided .skip := by
  intro d o c
  refine ⟨Text.forall_mem_of_all (by decide), by decide +kernel, by decide +kernel, ?_⟩
  obtain ⟨found, w', hrun, -⟩ := succeeds_collect (Conditions.calm_calm c ⟨0, 0⟩) o default rfl
  obtain ⟨e, ⟨he, hsame⟩, -⟩ := (lists_missing o (c.rows.map (·.descriptor))).complete
    ⟨"dbo", "[My"⟩ ⟨"[dbo].[My".toList, by decide +kernel, by decide +kernel, by decide +kernel⟩
  refine ⟨found, w', hrun, e, hsame, ?_⟩
  rw [(describes_of_collect hrun).2.1]
  exact List.mem_map_of_mem he

end Build

end SqlSnapshot
