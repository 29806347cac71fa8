import SqlSnapshot.Proofs.Filter.Names
import SqlSnapshot.Proofs.NameOrder

/-!
# Filters and the spelling of names

A pattern with a schema compares names as descriptors do, each character in lower case.  A pattern
without one and the list of schemas compare them up to the case of Latin letters only, and of the
listed schemas by then only the lower case is left.  So a filter may tell apart two spellings of one
procedure, and a list of schemas does not allow its own entry if that has a capital that is not
Latin (`NameFilter.accepts_by_spelling`).
-/

namespace SqlSnapshot

open Text

/-! ## Allowed schemas -/

namespace NameFilter

variable {o : Options} {s : String}

theorem allowsSchema_iff
    {f : NameFilter} :
    f.allowsSchema s = true ↔ f.schemas = [] ∨ ∃ entry ∈ f.schemas, sameAscii entry s = true := by
  rw [allowsSchema, Bool.or_eq_true, List.isEmpty_iff, List.any_eq_true]

theorem ne_empty_of_mem_schemas
    (h : s ∈ (ofOptions o).schemas) :
    s ≠ "" := by
  obtain ⟨entry, -, hs⟩ := List.mem_flatMap.mp h
  simpa using (List.mem_filter.mp hs).2

/-- A schema without a name is allowed by no list but the empty one. -/
theorem allowsSchema_empty_iff :
    (ofOptions o).allowsSchema "" = true ↔ (ofOptions o).schemas = [] := by
  rw [allowsSchema_iff]
  constructor
  · rintro (hempty | ⟨entry, hentry, hsame⟩)
    · exact hempty
    · have hnil : entry.toList.map Char.toLower = [] := by
        simpa [sameAscii] using hsame
      have hentry' : entry = "" := String.toList_injective (List.map_eq_nil_iff.mp hnil)
      exact absurd hentry' (ne_empty_of_mem_schemas hentry)
  · exact .inl

/-- No list allows a schema with a capital that is not Latin. -/
theorem isLatinCased_of_allowsSchema
    (h : (ofOptions o).allowsSchema s = true) :
    (ofOptions o).schemas = [] ∨ IsLatinCased s := by
  rcases allowsSchema_iff.mp h with hempty | ⟨entry, hentry, hsame⟩
  · exact .inl hempty
  · obtain ⟨t, rfl⟩ := exists_lower_of_mem_schemas hentry
    exact .inr (isLatinCased_of_sameAscii_lower hsame)

theorem lower_mem_schemas
    (hlisted : s ∈ o.schemas) (hs : IsSchemaEntry s) (hne : s ≠ "") :
    lower s ∈ (ofOptions o).schemas := by
  refine List.mem_flatMap.mpr ⟨s, hlisted, ?_⟩
  rw [hs.schemasOf_eq, List.mem_filter, Bool.not_eq_true', String.isEmpty_eq_false_iff]
  exact ⟨List.mem_singleton_self _, fun hlower => hne (lower_eq_empty_iff.mp hlower)⟩

/-- A list allows the schema that is its entry exactly if that has no capital but Latin ones. -/
theorem allowsSchema_listed_iff
    (hlisted : s ∈ o.schemas) (hs : IsSchemaEntry s) (hne : s ≠ "") :
    (ofOptions o).allowsSchema s = true ↔ IsLatinCased s := by
  have hentry := lower_mem_schemas hlisted hs hne
  constructor
  · intro h
    refine (isLatinCased_of_allowsSchema h).resolve_left fun hempty => ?_
    rw [hempty] at hentry
    exact absurd hentry List.not_mem_nil
  · intro hcased
    exact allowsSchema_iff.mpr (.inr ⟨_, hentry, isLatinCased_iff_sameAscii_lower.mp hcased⟩)

end NameFilter

/-! ## Spellings of one procedure -/

/-- Spellings that no exact filter tells apart: either both schemas or none have a capital that is
not Latin, and the names differ in Latin letters only. -/
structure Descriptor.SpelledAlike (d e : Descriptor) : Prop where
  schemas : IsLatinCased d.schema ↔ IsLatinCased e.schema
  names : sameAscii d.name e.name = true

/-- No pattern of the filter is a glob. -/
def NameFilter.IsExact (f : NameFilter) : Prop :=
  ∀ p ∈ f.patterns, ∃ wanted qualified, p = .exact wanted qualified

namespace NameFilter

variable {o : Options} {d e : Descriptor}

theorem allowsSchema_congr
    (hsame : caseKey d.schema = caseKey e.schema)
    (h : IsLatinCased d.schema ↔ IsLatinCased e.schema) (o : Options) :
    (ofOptions o).allowsSchema d.schema = (ofOptions o).allowsSchema e.schema := by
  by_cases hcased : IsLatinCased d.schema
  · have hspelled := (hcased.sameAscii_iff_caseKey_eq (h.mp hcased)).mpr hsame
    simp only [allowsSchema, sameAscii_congr_right hspelled]
  · have hnone : ∀ {s : String}, ¬ IsLatinCased s →
        ((ofOptions o).allowsSchema s = true ↔ (ofOptions o).schemas = []) := fun hs =>
      ⟨fun hallowed => (isLatinCased_of_allowsSchema hallowed).resolve_right hs,
        fun hempty => allowsSchema_iff.mpr (.inl hempty)⟩
    rw [Bool.eq_iff_iff, hnone hcased, hnone fun he => hcased (h.mpr he)]

theorem accepts_congr
    (hsame : d.same e = true) (h : d.SpelledAlike e) (hexact : (ofOptions o).IsExact) :
    (ofOptions o).accepts d = (ofOptions o).accepts e := by
  have hpatterns : ∀ p ∈ (ofOptions o).patterns, p.accepts d = p.accepts e := by
    intro p hp
    obtain ⟨wanted, qualified, rfl⟩ := hexact p hp
    cases qualified with
    | true => exact Descriptor.same_congr_right hsame wanted
    | false => exact sameAscii_congr_right h.names wanted.name
  have hnames : (ofOptions o).allowsName d = (ofOptions o).allowsName e := by
    have hany : (ofOptions o).patterns.any (·.accepts d) =
        (ofOptions o).patterns.any (·.accepts e) := by
      rw [Bool.eq_iff_iff, List.any_eq_true, List.any_eq_true]
      exact exists_congr fun p => and_congr_right fun hp => by rw [hpatterns p hp]
    rw [allowsName, allowsName, hany]
  rw [accepts, accepts, hnames,
    allowsSchema_congr (Descriptor.same_iff_caseKey_eq.mp hsame).1 h.schemas]

theorem patterns_of_token
    {name : String} (h : IsTokenName name) (ho : o.procedures = some name) :
    (ofOptions o).patterns = [.exact ⟨defaultSchema, name⟩ false] := by
  rw [ofOptions, ho, Option.map_some, h.tokens_eq]
  simp [h.toIsPlainName.ofToken?_eq]

theorem isExact_of_token
    {name : String} (h : IsTokenName name) (ho : o.procedures = some name) :
    (ofOptions o).IsExact := by
  intro p hp
  rw [patterns_of_token h ho] at hp
  exact ⟨_, _, List.mem_singleton.mp hp⟩

/-- Without schemas a filter of one plain name is that name. -/
theorem accepts_token
    {name : String} (h : IsTokenName name) (d : Descriptor) :
    (ofOptions { projectRoot := "", procedures := some name }).accepts d =
      sameAscii name d.name := by
  rw [accepts, allowsName, patterns_of_token h rfl]
  simp [ofOptions, allowsSchema, NamePattern.accepts]

/-- Without patterns a filter is its list of schemas. -/
theorem accepts_schemas
    (schemas : List String) (d : Descriptor) :
    (ofOptions { projectRoot := "", schemas }).accepts d =
      (ofOptions { projectRoot := "", schemas }).allowsSchema d.schema :=
  Bool.and_true _

theorem isLatinCased_of_accepts_eq
    (hsame : d.same e = true) (hentry : IsSchemaEntry d.schema)
    (h : ∀ o, (ofOptions o).IsExact → (ofOptions o).accepts d = (ofOptions o).accepts e)
    (hcased : IsLatinCased d.schema) :
    IsLatinCased e.schema := by
  have hkey := (Descriptor.same_iff_caseKey_eq.mp hsame).1
  by_cases hne : d.schema = ""
  · rw [hne, eq_comm] at hkey
    rw [caseKey_eq_nil_iff.mp hkey]
    exact fun c hc => absurd hc List.not_mem_nil
  · have hlisted : d.schema ∈ [d.schema] := List.mem_singleton_self _
    have hnames := h { projectRoot := "", schemas := [d.schema] } fun p hp =>
      absurd hp List.not_mem_nil
    rw [accepts_schemas, accepts_schemas,
      (allowsSchema_listed_iff hlisted hentry hne).mpr hcased] at hnames
    refine (isLatinCased_of_allowsSchema hnames.symm).resolve_left fun hempty => ?_
    have hmem := lower_mem_schemas (o := { projectRoot := "", schemas := [d.schema] }) hlisted
      hentry hne
    rw [hempty] at hmem
    exact absurd hmem List.not_mem_nil

/-- Names that can stand in a filter are told apart by one as soon as they are not spelled alike. -/
theorem spelledAlike_of_accepts_eq
    (hsame : d.same e = true) (hd : IsSchemaEntry d.schema) (he : IsSchemaEntry e.schema)
    (hname : IsTokenName d.name)
    (h : ∀ o, (ofOptions o).IsExact → (ofOptions o).accepts d = (ofOptions o).accepts e) :
    d.SpelledAlike e where
  schemas := by
    refine ⟨isLatinCased_of_accepts_eq hsame hd h, isLatinCased_of_accepts_eq ?_ he ?_⟩
    · rw [Descriptor.same_comm, hsame]
    · exact fun o ho => (h o ho).symm
  names := by
    have hnames := h _ (isExact_of_token (o := { projectRoot := "", procedures := some d.name })
      hname rfl)
    rw [accepts_token hname, accepts_token hname] at hnames
    rw [← hnames, sameAscii_iff]

end NameFilter

/-! ## Patterns with and without a schema -/

namespace NamePattern

theorem accepts_unqualified
    (schema name : String) (d : Descriptor) :
    (exact ⟨schema, name⟩ false).accepts d = sameAscii name d.name := rfl

theorem accepts_own_schema_iff
    (name : String) (d : Descriptor) :
    (exact ⟨d.schema, name⟩ true).accepts d = true ↔ caseKey name = caseKey d.name := by
  have hsame : (exact ⟨d.schema, name⟩ true).accepts d =
      (⟨d.schema, name⟩ : Descriptor).same d := rfl
  rw [hsame, Descriptor.same_iff_caseKey_eq]
  exact and_iff_right rfl

end NamePattern

theorem IsPlainName.patterns_agree_iff
    {d : Descriptor} {name : String} (hschema : IsPlainName d.schema) (hname : IsPlainName name) :
    ∃ p q, NamePattern.ofToken? name.toList = some p ∧
      NamePattern.ofToken? (d.schema.toList ++ '.' :: name.toList) = some q ∧
      (p.accepts d = true → q.accepts d = true) ∧
      (p.accepts d = q.accepts d ↔
        (caseKey name = caseKey d.name → sameAscii name d.name = true)) := by
  refine ⟨_, _, hname.ofToken?_eq, hschema.ofToken?_qualified hname, ?_, ?_⟩
  · rw [NamePattern.accepts_unqualified, NamePattern.accepts_own_schema_iff]
    exact caseKey_eq_of_sameAscii
  · rw [NamePattern.accepts_unqualified, Bool.eq_iff_iff, NamePattern.accepts_own_schema_iff]
    exact ⟨fun h => h.mpr, fun h => ⟨caseKey_eq_of_sameAscii, h⟩⟩

/-- How far a filter compares names as descriptors do.  Exact filters accept all spellings alike
that have the same Latin letters, and tell apart any other two that can stand in a filter.  A name
with and without the schema of a procedure accepts that procedure alike, unless the names are the
same in lower case but not up to Latin letters.  A list of schemas allows its own entry exactly if
that has no capital but Latin ones. -/
theorem NameFilter.accepts_by_spelling (d e : Descriptor) (o : Options) (name : String) :
    (d.same e = true →
      (d.SpelledAlike e → (ofOptions o).IsExact →
        (ofOptions o).accepts d = (ofOptions o).accepts e) ∧
      (IsSchemaEntry d.schema → IsSchemaEntry e.schema → IsTokenName d.name →
        (∀ o, (ofOptions o).IsExact → (ofOptions o).accepts d = (ofOptions o).accepts e) →
          d.SpelledAlike e)) ∧
    (IsPlainName d.schema → IsPlainName name →
      ∃ p q, NamePattern.ofToken? name.toList = some p ∧
        NamePattern.ofToken? (d.schema.toList ++ '.' :: name.toList) = some q ∧
        (p.accepts d = true → q.accepts d = true) ∧
        (p.accepts d = q.accepts d ↔
          (caseKey name = caseKey d.name → sameAscii name d.name = true))) ∧
    (d.schema ∈ o.schemas → IsSchemaEntry d.schema →
      (d.schema ≠ "" → ((ofOptions o).allowsSchema d.schema = true ↔ IsLatinCased d.schema)) ∧
      (d.schema = "" →
        ((ofOptions o).allowsSchema d.schema = true ↔ (ofOptions o).schemas = []))) := by
  refine ⟨fun hsame => ⟨accepts_congr hsame, spelledAlike_of_accepts_eq hsame⟩,
    fun hschema hname => hschema.patterns_agree_iff hname, fun hlisted hentry => ⟨?_, ?_⟩⟩
  · exact allowsSchema_listed_iff hlisted hentry
  · intro hempty
    rw [hempty]
    exact allowsSchema_empty_iff

def Options.sampleUmlauts : Options where
  projectRoot := "/p"
  schemas := ["größe"]
  procedures := some "prüfen"

/-- Small letters that are not Latin do no harm, and neither do Latin capitals. -/
theorem NameFilter.accepts_by_spelling_sample :
    (⟨"größe", "Prüfen"⟩ : Descriptor).same ⟨"GRößE", "PRüFEN"⟩ = true ∧
    (ofOptions .sampleUmlauts).accepts ⟨"größe", "Prüfen"⟩ =
      (ofOptions .sampleUmlauts).accepts ⟨"GRößE", "PRüFEN"⟩ ∧
    (∃ p q, NamePattern.ofToken? "prüfen".toList = some p ∧
      NamePattern.ofToken? ("größe".toList ++ '.' :: "prüfen".toList) = some q ∧
      p.accepts ⟨"größe", "Prüfen"⟩ = q.accepts ⟨"größe", "Prüfen"⟩) ∧
    (ofOptions .sampleUmlauts).allowsSchema "größe" = true := by
  obtain ⟨hspelling, hpatterns, hschemas⟩ := accepts_by_spelling ⟨"größe", "Prüfen"⟩
    ⟨"GRößE", "PRüFEN"⟩ .sampleUmlauts "prüfen"
  have hsame : (⟨"größe", "Prüfen"⟩ : Descriptor).same ⟨"GRößE", "PRüFEN"⟩ = true := by
    decide +kernel
  have hname : IsTokenName "prüfen" :=
    ⟨⟨isTrimmed_of_forall (forall_mem_of_all (by decide)), forall_mem_of_all (by decide)⟩,
      by decide, forall_mem_of_all (by decide)⟩
  have hschema : IsPlainName "größe" :=
    ⟨isTrimmed_of_forall (forall_mem_of_all (by decide)), forall_mem_of_all (by decide)⟩
  have hexact := isExact_of_token (o := .sampleUmlauts) hname rfl
  refine ⟨hsame, (hspelling hsame).1 ⟨by decide +kernel, by decide +kernel⟩ hexact, ?_, ?_⟩
  · obtain ⟨p, q, hp, hq, -, hagree⟩ := hpatterns hschema hname.toIsPlainName
    exact ⟨p, q, hp, hq, hagree.mpr (by decide +kernel)⟩
  · have hentry : IsSchemaEntry "größe" := ⟨hschema.trimmed, forall_mem_of_all (by decide)⟩
    exact ((hschemas (by decide) hentry).1 (by decide)).mpr (by decide +kernel)

/-- Two spellings of one procedure of which a filter accepts one, a name that needs its schema to
find a procedure, and a list of one schema that does not allow it. -/
theorem NameFilter.spellings_apart :
    ((⟨"dbo", "Ärger"⟩ : Descriptor).same ⟨"dbo", "ärger"⟩ = true ∧
      (ofOptions { projectRoot := "/p", procedures := some "Ärger" }).accepts
        ⟨"dbo", "Ärger"⟩ = true ∧
      (ofOptions { projectRoot := "/p", procedures := some "Ärger" }).accepts
        ⟨"dbo", "ärger"⟩ = false) ∧
    ((ofOptions { projectRoot := "/p", procedures := some "ärger" }).accepts
        ⟨"dbo", "Ärger"⟩ = false ∧
      (ofOptions { projectRoot := "/p", procedures := some "dbo.ärger" }).accepts
        ⟨"dbo", "Ärger"⟩ = true) ∧
    (ofOptions { projectRoot := "/p", schemas := ["Ärzte"] }).accepts
      ⟨"Ärzte", "Liste"⟩ = false := by
  decide +kernel

end SqlSnapshot
