import SqlSnapshot.Filter.Basic
import SqlSnapshot.Proofs.Disk.Paths
import SqlSnapshot.Proofs.Text.LowerImages

/-!
# Names in filters

A name without the characters that have a meaning in filters is read as it stands: alone as a
pattern for names, behind its schema and a dot as a pattern for procedures, and in a list of schemas
as one schema in lower case.
-/

namespace SqlSnapshot

namespace Text

/-- No blank stands at an end of the text. -/
structure IsTrimmed (cs : List Char) : Prop where
  first : ∀ c ∈ cs.head?, isBlank c = false
  last : ∀ c ∈ cs.getLast?, isBlank c = false

theorem dropWhile_of_head?
    {p : Char → Bool} {cs : List Char} (h : ∀ c ∈ cs.head?, p c = false) :
    cs.dropWhile p = cs := by
  cases cs with
  | nil => rfl
  | cons c cs => rw [List.dropWhile_cons, h c rfl]; rfl

theorem trimBoth_of_ends
    {p : Char → Bool} {cs : List Char} (hfirst : ∀ c ∈ cs.head?, p c = false)
    (hlast : ∀ c ∈ cs.getLast?, p c = false) :
    trimBoth p cs = cs := by
  have hreverse : ∀ c ∈ cs.reverse.head?, p c = false := by
    rwa [List.head?_reverse]
  rw [trimBoth, trimEnd, trimStart, dropWhile_of_head? hfirst, dropWhile_of_head? hreverse,
    List.reverse_reverse]

theorem IsTrimmed.trimBoth_eq
    {cs : List Char} (h : IsTrimmed cs) :
    trimBoth isBlank cs = cs :=
  trimBoth_of_ends h.first h.last

theorem isTrimmed_of_forall
    {cs : List Char} (h : ∀ c ∈ cs, isBlank c = false) :
    IsTrimmed cs :=
  ⟨fun c hc => h c (List.mem_of_head? hc), fun c hc => h c (List.mem_of_getLast? hc)⟩

/-- Around a dot nothing is trimmed that is not trimmed at the ends. -/
theorem IsTrimmed.append_dot
    {cs ds : List Char} (hcs : IsTrimmed cs) (hds : IsTrimmed ds) :
    IsTrimmed (cs ++ '.' :: ds) where
  first := by
    cases cs with
    | nil =>
      rintro c ⟨⟩
      decide
    | cons d cs => exact hcs.first
  last := by
    rw [List.getLast?_append, List.getLast?_cons]
    intro c hc
    have hlast : ds.getLast?.getD '.' = c := by simpa using hc
    cases hends : ds.getLast? with
    | none =>
      rw [hends] at hlast
      subst hlast
      decide
    | some d =>
      rw [hends] at hlast
      subst hlast
      exact hds.last _ hends

/-- What is to hold of all characters of a text is checked along the text. -/
theorem forall_mem_of_all
    {p : Char → Prop} [DecidablePred p] {cs : List Char} (h : cs.all (fun c => p c) = true) :
    ∀ c ∈ cs, p c := by
  simpa using h

theorem lowerChar_ne_nil (c : Char) : lowerChar c ≠ [] := by
  unfold lowerChar
  split <;> simp

theorem lower_eq_empty_iff {s : String} : lower s = "" ↔ s = "" := by
  constructor
  · intro h
    have hlist : lowerFrom [] s.toList = [] := by
      rw [← String.toList_ofList (l := lowerFrom [] s.toList)]
      exact congrArg String.toList h
    cases hchars : s.toList with
    | nil => exact String.toList_injective hchars
    | cons c cs =>
      rw [hchars, lowerFrom, List.append_eq_nil_iff] at hlist
      refine absurd hlist.1 ?_
      split
      · split <;> simp
      · exact lowerChar_ne_nil c
  · rintro rfl
    rfl

theorem caseKey_eq_nil_iff {s : String} : caseKey s = [] ↔ s = "" := by
  constructor
  · intro h
    cases hchars : s.toList with
    | nil => exact String.toList_injective hchars
    | cons c cs =>
      rw [caseKey, hchars, List.flatMap_cons, List.append_eq_nil_iff] at h
      exact absurd h.1 (lowerChar_ne_nil c)
  · rintro rfl
    rfl

end Text

/-! ## Plain names -/

/-- A name that is read as it stands, and is no glob. -/
structure IsPlainName (s : String) : Prop where
  trimmed : Text.IsTrimmed s.toList
  plain : ∀ c ∈ s.toList, c ≠ '.' ∧ c ≠ '[' ∧ c ≠ ']' ∧ c ≠ '*' ∧ c ≠ '?'

/-- A plain name that is one token of a filter text. -/
structure IsTokenName (s : String) : Prop extends IsPlainName s where
  ne_empty : s ≠ ""
  unseparated : ∀ c ∈ s.toList, c ≠ ',' ∧ c ≠ ';' ∧ Text.isBlank c = false

/-- A name that is one entry of a list of schemas, or none if it is empty. -/
structure IsSchemaEntry (s : String) : Prop where
  trimmed : Text.IsTrimmed s.toList
  plain : ∀ c ∈ s.toList, c ≠ ',' ∧ c ≠ ';' ∧ c ≠ '[' ∧ c ≠ ']'

namespace Descriptor

theorem splitQualified?_of_dotless
    {cs : List Char} (h : ∀ c ∈ cs, c ≠ '.') (depth : Nat) :
    splitQualified? depth cs = none := by
  induction cs generalizing depth with
  | nil => rfl
  | cons c cs ih =>
    have hc : ¬ (c = '.' ∧ depth = 0) := fun hdot => h c List.mem_cons_self hdot.1
    rw [splitQualified?, if_neg hc]
    dsimp only
    rw [ih fun d hd => h d (List.mem_cons_of_mem c hd)]
    rfl

theorem splitQualified?_append_dot
    {cs : List Char} (h : ∀ c ∈ cs, c ≠ '.' ∧ c ≠ '[' ∧ c ≠ ']') (ds : List Char) :
    splitQualified? 0 (cs ++ '.' :: ds) = some (cs, ds) := by
  induction cs with
  | nil => rfl
  | cons c cs ih =>
    obtain ⟨hdot, hopens, hcloses⟩ := h c List.mem_cons_self
    rw [List.cons_append, splitQualified?, if_neg fun hc => hdot hc.1]
    simp only [if_neg hopens, if_neg hcloses]
    rw [ih fun d hd => h d (List.mem_cons_of_mem c hd)]
    rfl

theorem unbracket_of_plain
    {cs : List Char} (htrimmed : Text.IsTrimmed cs) (h : ∀ c ∈ cs, c ≠ '[') :
    unbracket cs = String.ofList cs := by
  have hbetween : betweenBrackets? cs = none := by
    unfold betweenBrackets?
    split
    · exact absurd rfl (h '[' List.mem_cons_self)
    · rfl
  rw [unbracket, htrimmed.trimBoth_eq, hbetween]
  rfl

/-! ### Names in brackets -/

def IsBracketFree (cs : List Char) : Prop :=
  ∀ c ∈ cs, c ≠ '[' ∧ c ≠ ']'

/-- Inside brackets nothing is cut. -/
theorem splitQualified?_inside
    {cs : List Char} (h : IsBracketFree cs) {depth : Nat} (hdepth : depth ≠ 0) (rest : List Char) :
    splitQualified? depth (cs ++ rest) =
      (splitQualified? depth rest).map fun (before, after) => (cs ++ before, after) := by
  induction cs with
  | nil => simp
  | cons c cs ih =>
    obtain ⟨hopens, hcloses⟩ := h c List.mem_cons_self
    rw [List.cons_append, splitQualified?, if_neg fun hc => hdepth hc.2]
    simp only [if_neg hopens, if_neg hcloses]
    rw [ih fun d hd => h d (List.mem_cons_of_mem c hd), Option.map_map]
    rfl

theorem splitQualified?_open
    {cs : List Char} (h : IsBracketFree cs) {depth : Nat} (hdepth : depth ≠ 0) :
    splitQualified? depth cs = none := by
  have hinside := splitQualified?_inside h hdepth []
  rwa [List.append_nil] at hinside

theorem splitQualified?_quoted
    {cs : List Char} (h : IsBracketFree cs) (rest : List Char) :
    splitQualified? 0 (('[' :: cs ++ [']']) ++ rest) =
      (splitQualified? 0 rest).map fun (before, after) => ('[' :: cs ++ ']' :: before, after) := by
  rw [List.cons_append, List.cons_append, splitQualified?, if_neg fun hc => absurd hc.1 (by decide),
    List.append_assoc]
  simp only [if_true, Nat.zero_add]
  rw [splitQualified?_inside h (by decide), List.singleton_append, splitQualified?,
    if_neg fun hc => absurd hc.1 (by decide)]
  simp only [Option.map_map]
  rfl

theorem splitQualified?_bracketed
    {cs : List Char} (h : IsBracketFree cs) (ds : List Char) :
    splitQualified? 0 (('[' :: cs ++ [']']) ++ '.' :: ds) = some ('[' :: cs ++ [']'], ds) := by
  rw [splitQualified?_quoted h]
  rfl

theorem isTrimmed_bracketed (cs : List Char) : Text.IsTrimmed ('[' :: cs ++ [']']) where
  first := by
    rintro c ⟨⟩
    decide
  last := by
    rw [List.getLast?_append]
    rintro c ⟨⟩
    decide

theorem unbracket_bracketed (cs : List Char) :
    unbracket ('[' :: cs ++ [']']) = String.ofList cs := by
  rw [unbracket, (isTrimmed_bracketed cs).trimBoth_eq]
  simp [betweenBrackets?]

end Descriptor

open Descriptor

theorem IsPlainName.parseQualified?_eq
    {s : String} (h : IsPlainName s) :
    parseQualified? s = none := by
  rw [parseQualified?, h.trimmed.trimBoth_eq,
    splitQualified?_of_dotless fun c hc => (h.plain c hc).1]
  rfl

theorem IsPlainName.unbracket_eq
    {s : String} (h : IsPlainName s) :
    unbracket s.toList = s := by
  rw [unbracket_of_plain h.trimmed fun c hc => (h.plain c hc).2.1, String.ofList_toList]

theorem IsPlainName.parse_eq
    {s : String} (h : IsPlainName s) :
    parse s = ⟨defaultSchema, s⟩ := by
  rw [parse, h.parseQualified?_eq, h.unbracket_eq]
  rfl

theorem IsPlainName.parseQualified?_qualified
    {schema name : String} (hschema : IsPlainName schema) (hname : IsPlainName name) :
    parseQualified? (String.ofList (schema.toList ++ '.' :: name.toList)) =
      some ⟨schema, name⟩ := by
  have hsplit := splitQualified?_append_dot
    (fun c hc => ⟨(hschema.plain c hc).1, (hschema.plain c hc).2.1, (hschema.plain c hc).2.2.1⟩)
    name.toList
  rw [parseQualified?, String.toList_ofList,
    (hschema.trimmed.append_dot hname.trimmed).trimBoth_eq, hsplit, Option.map_some]
  dsimp only
  rw [hschema.unbracket_eq, hname.unbracket_eq]

namespace NamePattern

theorem ofToken?_of_no_wildcard
    {token : List Char} (h : ∀ c ∈ token, c ≠ '*' ∧ c ≠ '?') :
    ofToken? token = some (.exact (parse (String.ofList token))
      (parseQualified? (String.ofList token)).isSome) := by
  have hany : (token.any fun c => c == '*' || c == '?') = false := by
    rw [List.any_eq_false]
    intro c hc
    simpa using h c hc
  rw [ofToken?, hany]
  rfl

end NamePattern

theorem IsPlainName.ofToken?_eq
    {s : String} (h : IsPlainName s) :
    NamePattern.ofToken? s.toList = some (.exact ⟨defaultSchema, s⟩ false) := by
  rw [NamePattern.ofToken?_of_no_wildcard fun c hc => (h.plain c hc).2.2.2, String.ofList_toList,
    h.parse_eq, h.parseQualified?_eq]
  rfl

theorem IsPlainName.ofToken?_qualified
    {schema name : String} (hschema : IsPlainName schema) (hname : IsPlainName name) :
    NamePattern.ofToken? (schema.toList ++ '.' :: name.toList) =
      some (.exact ⟨schema, name⟩ true) := by
  have hwildcards : ∀ c ∈ schema.toList ++ '.' :: name.toList, c ≠ '*' ∧ c ≠ '?' := by
    intro c hc
    rcases List.mem_append.mp hc with hc | hc
    · exact (hschema.plain c hc).2.2.2
    · rcases List.mem_cons.mp hc with rfl | hc
      · decide
      · exact (hname.plain c hc).2.2.2
  rw [NamePattern.ofToken?_of_no_wildcard hwildcards, parse,
    hschema.parseQualified?_qualified hname]
  rfl

/-! ## Names in options -/

theorem Text.pieces_of_not_mem
    {p : Char → Bool} {cs : List Char} (hne : cs ≠ []) (h : ∀ c ∈ cs, p c = false) :
    Text.pieces p cs = [cs] := by
  rw [Text.pieces, Path.splitBy_of_not_mem h, List.filter_cons_of_pos (by simpa using hne)]
  rfl

theorem IsTokenName.tokens_eq
    {s : String} (h : IsTokenName s) :
    NameFilter.tokens s = [s.toList] := by
  apply Text.pieces_of_not_mem
  · intro hnil
    exact h.ne_empty (String.toList_injective hnil)
  · intro c hc
    obtain ⟨hcomma, hsemicolon, hblank⟩ := h.unseparated c hc
    simp [hcomma, hsemicolon, hblank]

theorem IsSchemaEntry.schemasOf_eq
    {s : String} (h : IsSchemaEntry s) :
    NameFilter.schemasOf s = [Text.lower s].filter (!·.isEmpty) := by
  have hsplit : Text.splitBy (fun c => c == ',' || c == ';') s.toList = [s.toList] := by
    apply Path.splitBy_of_not_mem
    intro c hc
    obtain ⟨hcomma, hsemicolon, -⟩ := h.plain c hc
    simp [hcomma, hsemicolon]
  have hbrackets : ∀ c ∈ s.toList, (c == '[' || c == ']') = false := by
    intro c hc
    obtain ⟨-, -, hopens, hcloses⟩ := h.plain c hc
    simp [hopens, hcloses]
  have htrim : Text.trimBoth (fun c => c == '[' || c == ']') s.toList = s.toList :=
    Text.trimBoth_of_ends (fun c hc => hbrackets c (List.mem_of_head? hc))
      fun c hc => hbrackets c (List.mem_of_getLast? hc)
  rw [NameFilter.schemasOf, hsplit, List.map_singleton, h.trimmed.trimBoth_eq, htrim,
    String.ofList_toList]

/-- Every allowed schema is in lower case. -/
theorem NameFilter.exists_lower_of_mem_schemas
    {o : Options} {s : String} (h : s ∈ (NameFilter.ofOptions o).schemas) :
    ∃ t, s = Text.lower t := by
  obtain ⟨entry, -, hs⟩ := List.mem_flatMap.mp h
  obtain ⟨piece, -, rfl⟩ := List.mem_map.mp (List.mem_filter.mp hs).1
  exact ⟨_, rfl⟩

end SqlSnapshot
