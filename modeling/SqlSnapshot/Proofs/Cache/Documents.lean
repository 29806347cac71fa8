import SqlSnapshot.Proofs.Cache.Entries
import SqlSnapshot.Proofs.Json.Records
import SqlSnapshot.Proofs.Timestamp.RoundTrip

/-!
# Cache files read back

A cache file gives back the entries that were written when these are well formed: in order, with
canonical dependencies, and with dates that a calendar has.  All entries that were ever read from a
file are well formed, so that what a build found in a foreign file it can write again.
-/

namespace SqlSnapshot

namespace Timestamp

theorem ofJson?_text
    {t : Timestamp} (h : t.IsInstant) :
    ofJson? (.text t.render) = some t :=
  parse?_render h

theorem isInstant_of_ofJson?
    {j : Json} {t : Timestamp} (h : ofJson? j = some t) :
    t.IsInstant := by
  unfold ofJson? at h
  split at h
  · exact isInstant_of_parse? h
  · contradiction

theorem isInstant_of_maybe
    {r : Json.Record} {name : String} {t : Timestamp}
    (h : r.maybe name ofJson? = some (some t)) :
    t.IsInstant := by
  unfold Json.Record.maybe at h
  split at h
  · simp at h
  · simp at h
  · obtain ⟨u, hu, heq⟩ := Option.map_eq_some_iff.mp h
    rw [← Option.some.inj heq]
    exact isInstant_of_ofJson? hu

end Timestamp

/-! ## Dependencies -/

namespace Dependency

/-- The modify date, if there is one, is an instant. -/
def IsDated (d : Dependency) : Prop :=
  ∀ t, d.lastModified = some t → t.IsInstant

theorem kind_ofJson?_toJson (k : DependencyKind) : DependencyKind.ofJson? k.toJson = some k := by
  cases k <;> rfl

theorem ofJson?_toJson
    {d : Dependency} (h : d.IsDated) :
    ofJson? d.toJson = some d := by
  have hdate : ∀ t, d.lastModified = some t →
      t.toJson ≠ .null ∧ Timestamp.ofJson? t.toJson = some t := by
    intro t ht
    exact ⟨by simp [Timestamp.toJson], Timestamp.ofJson?_text (h t ht)⟩
  rw [ofJson?, toJson, Json.asRecord?_object _ (by decide)]
  · generalize hr : Json.recordOf _ = r
    have hkind : r "kind" = some d.kind.toJson := by
      simp [← hr, Json.recordOf_append, Json.recordOf_field]
    have hschema : r "schema" = some (.text d.schema) := by
      simp [← hr, Json.recordOf_append, Json.recordOf_field]
    have hname : r "name" = some (.text d.name) := by
      simp [← hr, Json.recordOf_append, Json.recordOf_field]
    have hmodified : r "lastModifiedUtc" = d.lastModified.map Timestamp.toJson := by
      simp [← hr, Json.recordOf_append, Json.recordOf_field, Json.recordOf_fieldSome]
    simp only [Json.Record.required, hkind, hschema, hname, Json.maybe_of_eq_map hmodified hdate,
      Option.bind_eq_bind, Option.bind_some, kind_ofJson?_toJson, Json.asText?]
    rfl
  · simp only [List.map_append]
    exact (((Json.sublist_names_field _ _).append (Json.sublist_names_field _ _)).append
      (Json.sublist_names_field _ _)).append (Json.sublist_names_fieldSome _ _ _)

theorem isDated_of_ofJson?
    {j : Json} {d : Dependency} (h : ofJson? j = some d) :
    d.IsDated := by
  simp only [ofJson?, Option.bind_eq_bind, Option.bind_eq_some_iff, Option.pure_def,
    Option.some.injEq] at h
  obtain ⟨r, -, kind, -, schema, -, name, -, lastModified, hmodified, rfl⟩ := h
  intro t ht
  dsimp only at ht
  exact Timestamp.isInstant_of_maybe (ht ▸ hmodified)

theorem isPlain_toJson (depth : Nat) (d : Dependency) : Json.IsPlain (depth + 1) d.toJson := by
  simp only [toJson, Json.IsPlain, List.mem_append]
  rintro m (((hm | hm) | hm) | hm)
  · exact Json.isPlain_field (Json.isPlain_text depth _) hm
  · exact Json.isPlain_field (Json.isPlain_text depth _) hm
  · exact Json.isPlain_field (Json.isPlain_text depth _) hm
  · exact Json.isPlain_fieldSome (fun t => Json.isPlain_text depth _) hm

end Dependency

/-! ## Entries -/

namespace CacheEntry

/-- The dates are instants, and the dependencies are canonical. -/
structure IsWellFormed (e : CacheEntry) : Prop where
  lastModified : e.lastModified.IsInstant
  lastAnalyzed : e.lastAnalyzed.IsInstant
  dated : ∀ d ∈ e.dependencies, d.IsDated
  canonical : Dependency.canonical e.dependencies = e.dependencies

theorem ofJson?_toJson
    {e : CacheEntry} (h : e.IsWellFormed) :
    ofJson? e.toJson = some e := by
  rw [ofJson?, toJson, Json.asRecord?_object _ (by decide)]
  · generalize hr : Json.recordOf _ = r
    have hschema : r "schema" = some (.text e.schema) := by
      simp [← hr, Json.recordOf_append, Json.recordOf_field]
    have hname : r "name" = some (.text e.name) := by
      simp [← hr, Json.recordOf_append, Json.recordOf_field]
    have hmodified : r "lastModifiedUtc" = some (.text e.lastModified.render) := by
      simp [← hr, Json.recordOf_append, Json.recordOf_field, Timestamp.toJson]
    have hhash : r "snapshotHash" = e.snapshotHash.map Json.text := by
      simp [← hr, Json.recordOf_append, Json.recordOf_field, Json.recordOf_fieldSome]
    have hfile : r "snapshotFile" = e.snapshotFile.map Json.text := by
      simp [← hr, Json.recordOf_append, Json.recordOf_field, Json.recordOf_fieldSome]
    have hanalyzed : r "lastAnalyzedUtc" = some (.text e.lastAnalyzed.render) := by
      simp [← hr, Json.recordOf_append, Json.recordOf_field, Json.recordOf_fieldSome,
        Timestamp.toJson]
    have hdependencies :
        r "dependencies" = some (Json.ofList Dependency.toJson e.dependencies) := by
      simp [← hr, Json.recordOf_append, Json.recordOf_field, Json.recordOf_fieldSome]
    have htext : ∀ {value : Option String} (s : String), value = some s →
        Json.text s ≠ .null ∧ Json.asText? (.text s) = some s :=
      fun s _ => ⟨by simp, rfl⟩
    have hlist : Json.asList? Dependency.ofJson?
        (Json.ofList Dependency.toJson e.dependencies) = some e.dependencies :=
      Json.asList?_ofList fun d hd => Dependency.ofJson?_toJson (h.dated d hd)
    simp only [Json.Record.required, Json.Record.withDefault, hschema, hname, hmodified, hanalyzed,
      hdependencies, Json.maybe_of_eq_map hhash htext, Json.maybe_of_eq_map hfile htext,
      Option.bind_eq_bind, Option.bind_some, Json.asText?,
      Timestamp.ofJson?_text h.lastModified, Timestamp.ofJson?_text h.lastAnalyzed, hlist]
    rfl
  · simp only [List.map_append]
    exact ((((((Json.sublist_names_field _ _).append (Json.sublist_names_field _ _)).append
      (Json.sublist_names_field _ _)).append (Json.sublist_names_fieldSome _ _ _)).append
      (Json.sublist_names_fieldSome _ _ _)).append (Json.sublist_names_field _ _)).append
      (Json.sublist_names_field _ _)

theorem isPlain_toJson
    (depth : Nat) (e : CacheEntry) :
    Json.IsPlain (depth + 3) e.toJson := by
  simp only [toJson, Json.IsPlain, List.mem_append]
  rintro m ((((((hm | hm) | hm) | hm) | hm) | hm) | hm)
  · exact Json.isPlain_field (Json.isPlain_text _ _) hm
  · exact Json.isPlain_field (Json.isPlain_text _ _) hm
  · exact Json.isPlain_field (Json.isPlain_text _ _) hm
  · exact Json.isPlain_fieldSome (fun s => Json.isPlain_text _ s) hm
  · exact Json.isPlain_fieldSome (fun s => Json.isPlain_text _ s) hm
  · exact Json.isPlain_field (Json.isPlain_text _ _) hm
  · exact Json.isPlain_field (Json.isPlain_ofList fun d _ => d.isPlain_toJson depth) hm

theorem isWellFormed_of_ofJson?
    {j : Json} {e : CacheEntry} (h : ofJson? j = some e) :
    IsWellFormed { e with dependencies := Dependency.canonical e.dependencies } := by
  simp only [ofJson?, Option.bind_eq_bind, Option.bind_eq_some_iff, Option.pure_def,
    Option.some.injEq] at h
  obtain ⟨r, -, schema, -, name, -, lastModified, hmodified, hash, -, file, -, lastAnalyzed,
    hanalyzed, dependencies, hdependencies, rfl⟩ := h
  obtain ⟨_, -, hdate⟩ := Option.bind_eq_some_iff.mp hmodified
  obtain ⟨_, -, htime⟩ := Option.bind_eq_some_iff.mp hanalyzed
  refine ⟨Timestamp.isInstant_of_ofJson? hdate, Timestamp.isInstant_of_ofJson? htime, ?_,
    Dependency.canonical_canonical _⟩
  intro d hd
  have hmem := Dependency.mem_of_mem_canonical hd
  unfold Json.Record.withDefault at hdependencies
  split at hdependencies
  · rw [← Option.some.inj hdependencies] at hmem
    simp at hmem
  · obtain ⟨u, hu⟩ := Json.exists_of_mem_asList? hdependencies hmem
    exact Dependency.isDated_of_ofJson? hu

end CacheEntry

/-! ## Files -/

namespace CacheEntries

/-- The entries are in order, and each is well formed. -/
structure IsWellFormed (es : CacheEntries) : Prop where
  sorted : es.Sorted
  entries : ∀ e ∈ es, e.IsWellFormed

variable {es : CacheEntries}

theorem isPlain_toJson (es : CacheEntries) : Json.IsPlain Json.nestingLimit (toJson es) := by
  change Json.IsPlain (126 + 1) (toJson es)
  simp only [toJson, Json.IsPlain, List.mem_append]
  rintro m (hm | hm)
  · refine Json.isPlain_field ?_ hm
    simp [Json.ofNat, Json.IsPlain, currentVersion]
  · exact Json.isPlain_field (Json.isPlain_ofList fun e _ => e.isPlain_toJson 122) hm

theorem ofJson?_toJson
    (h : es.IsWellFormed) :
    ofJson? (toJson es) = some es := by
  rw [ofJson?, toJson, Json.asRecord?_object _ (by decide)]
  · generalize hr : Json.recordOf _ = r
    have hversion : r "version" = some (.ofNat currentVersion) := by
      simp [← hr, Json.recordOf_append, Json.recordOf_field]
    have hentries : r "entries" = some (Json.ofList CacheEntry.toJson es) := by
      simp [← hr, Json.recordOf_append, Json.recordOf_field]
    have hnumber : Json.asNatBelow? UInt32.size (.ofNat currentVersion) = some currentVersion := by
      decide
    have hlist : Json.asList? CacheEntry.ofJson? (Json.ofList CacheEntry.toJson es) = some es :=
      Json.asList?_ofList fun e he => CacheEntry.ofJson?_toJson (h.entries e he)
    have hcanonical :
        (es.map fun e => { e with dependencies := Dependency.canonical e.dependencies }) = es := by
      have hcongr : ∀ e ∈ es,
          ({ e with dependencies := Dependency.canonical e.dependencies } : CacheEntry) = id e := by
        intro e he
        rw [(h.entries e he).canonical]
        rfl
      rw [List.map_congr_left hcongr, List.map_id]
    simp only [Json.Record.required, hversion, hentries, Option.bind_eq_bind, Option.bind_some,
      hnumber, hlist, if_true, hcanonical]
    rw [putAll_eq_append (by simpa using h.sorted)]
    rfl
  · simp only [List.map_append]
    exact (Json.sublist_names_field _ _).append (Json.sublist_names_field _ _)

theorem fromUTF8?_toUTF8 (s : String) : String.fromUTF8? s.toUTF8 = some s := by
  have hvalid : s.toByteArray.IsValidUTF8 := s.isValidUTF8
  rw [String.toUTF8_eq_toByteArray, String.fromUTF8?, dif_pos hvalid]
  rfl

/-- The file that is written for well-formed entries holds these entries. -/
theorem ofFile_fileText
    (h : es.IsWellFormed) :
    ofFile (some es.fileText.toUTF8) = es := by
  simp only [ofFile, fileText, Option.bind_eq_bind, Option.bind_some, fromUTF8?_toUTF8,
    Json.parse?_pretty es.isPlain_toJson, ofJson?_toJson h, Option.getD_some]

theorem isWellFormed_ofFile (content : Option ByteArray) : (ofFile content).IsWellFormed := by
  have hempty : IsWellFormed [] := ⟨List.Pairwise.nil, by simp⟩
  rw [ofFile]
  cases hread : (do ofJson? (← Json.parse? (← String.fromUTF8? (← content)))) with
  | none => exact hempty
  | some es =>
    rw [Option.getD_some]
    simp only [Option.bind_eq_bind, Option.bind_eq_some_iff] at hread
    obtain ⟨bytes, -, text, -, j, -, hes⟩ := hread
    simp only [ofJson?, Option.bind_eq_bind, Option.bind_eq_some_iff] at hes
    obtain ⟨r, -, version, -, entries, hentries, hes⟩ := hes
    split at hes
    · rw [Option.pure_def, Option.some.injEq] at hes
      subst hes
      refine ⟨hempty.sorted.putAll _, ?_⟩
      intro e he
      rcases mem_putAll he with he | he
      · obtain ⟨f, hf, rfl⟩ := List.mem_map.mp he
        obtain ⟨v, -, hlist⟩ := Option.bind_eq_some_iff.mp hentries
        obtain ⟨u, hu⟩ := Json.exists_of_mem_asList? hlist hf
        exact CacheEntry.isWellFormed_of_ofJson? hu
      · simp at he
    · simp at hes

end CacheEntries

end SqlSnapshot
