import SqlSnapshot.Proofs.Cache.Documents
import SqlSnapshot.Proofs.Content.Documents
import SqlSnapshot.Snapshot

/-!
# Snapshots read back

A snapshot is read from its bytes as it was written.  As every analysis determines its snapshot, the
bytes of two analyses are the same exactly if these agree on what a snapshot keeps; nothing that is
left out of the document can tell two snapshots apart.
-/

namespace SqlSnapshot

theorem Json.asNatBelow?_ofNat
    {bound n : Nat} (h : n < bound) :
    asNatBelow? bound (ofNat n) = some n := by
  have hle : (n : Int) ≤ (bound : Int) - 1 := by omega
  simp [asNatBelow?, asIntIn?, ofNat, hle]

/-! ## Targets -/

namespace DependencyTarget

theorem ofJson?_toJson (t : DependencyTarget) : ofJson? t.toJson = some t := by
  rw [ofJson?, toJson, Json.asRecord?_object _ (by decide)]
  · generalize hr : Json.recordOf _ = r
    have hkind : r "kind" = some t.kind.toJson := by
      simp [← hr, Json.recordOf_append, Json.recordOf_field]
    have hschema : r "schema" = some (.text t.schema) := by
      simp [← hr, Json.recordOf_append, Json.recordOf_field]
    have hname : r "name" = some (.text t.name) := by
      simp [← hr, Json.recordOf_append, Json.recordOf_field]
    simp only [Option.bind_eq_bind, Option.bind_some,
      Json.required_of_eq hkind (Dependency.kind_ofJson?_toJson t.kind),
      Json.required_text hschema, Json.required_text hname]
    rfl
  · simp only [List.map_append]
    exact ((Json.sublist_names_field _ _).append (Json.sublist_names_field _ _)).append
      (Json.sublist_names_field _ _)

theorem isWritable_toJson (t : DependencyTarget) : Json.IsWritable t.toJson :=
  .object (Json.areWritable_append (Json.areWritable_append
    (Json.areWritable_field _ (.text _)) (Json.areWritable_field _ (.text _)))
    (Json.areWritable_field _ (.text _)))

end DependencyTarget

/-! ## Parser reports -/

namespace ParserReport

variable {p : ParserReport}

theorem ofJson?_toJson
    (hp : p.errorCount < UInt64.size) :
    ofJson? p.toJson = some p := by
  rw [ofJson?, toJson, Json.asRecord?_object _ (by decide)]
  · generalize hr : Json.recordOf _ = r
    have hused : r "usedFallbackParser" = some (.bool p.usedFallback) := by
      simp [← hr, Json.recordOf_append, Json.recordOf_field]
    have hcount : r "parseErrorCount" = some (.ofNat p.errorCount) := by
      simp [← hr, Json.recordOf_append, Json.recordOf_field]
    have hfirst : r "firstParseError" = p.firstError.map Json.text := by
      simp [← hr, Json.recordOf_append, Json.recordOf_field, Json.recordOf_fieldSome]
    simp only [Option.bind_eq_bind, Option.bind_some, Json.required_bool hused,
      Json.required_of_eq hcount (Json.asNatBelow?_ofNat hp), Json.maybe_text hfirst]
    rfl
  · simp only [List.map_append]
    exact ((Json.sublist_names_field _ _).append (Json.sublist_names_field _ _)).append
      (Json.sublist_names_fieldSome _ _ _)

theorem isWritable_toJson
    (hp : p.errorCount < UInt64.size) :
    Json.IsWritable p.toJson :=
  .object (Json.areWritable_append (Json.areWritable_append
    (Json.areWritable_field _ (.bool _)) (Json.areWritable_field _ (.int (by simpa using hp))))
    (Json.areWritable_fieldSome _ fun s _ => .text s))

theorem ofContent?_eq_iff
    (c c' : Content) :
    ofContent? c = ofContent? c' ↔ c.usedFallback = c'.usedFallback ∧
      (c.usedFallback = true →
        c.parseErrors = c'.parseErrors ∧ c.firstParseError = c'.firstParseError) := by
  cases hused : c.usedFallback <;> cases hused' : c'.usedFallback <;>
    simp [ofContent?, hused, hused']

end ParserReport

/-! ## Snapshots -/

namespace Snapshot

variable {s : Snapshot}

theorem readStatements?_statementsToJson
    (s : Snapshot) :
    readStatements? s.statementsToJson = some (s.statements, s.isPureWrapper) := by
  rw [readStatements?, statementsToJson, StatementFlags.fields,
    Json.asRecord?_object _ (by decide)]
  · generalize hr : Json.recordOf _ = r
    have hselect : r "containsSelect" = some (.bool s.statements.hasSelect) := by
      simp [← hr, Json.recordOf_append, Json.recordOf_field]
    have hinsert : r "containsInsert" = some (.bool s.statements.hasInsert) := by
      simp [← hr, Json.recordOf_append, Json.recordOf_field]
    have hupdate : r "containsUpdate" = some (.bool s.statements.hasUpdate) := by
      simp [← hr, Json.recordOf_append, Json.recordOf_field]
    have hdelete : r "containsDelete" = some (.bool s.statements.hasDelete) := by
      simp [← hr, Json.recordOf_append, Json.recordOf_field]
    have hmerge : r "containsMerge" = some (.bool s.statements.hasMerge) := by
      simp [← hr, Json.recordOf_append, Json.recordOf_field]
    have hopen : r "containsOpenJson" = some (.bool s.statements.hasOpenJson) := by
      simp [← hr, Json.recordOf_append, Json.recordOf_field]
    have hwrapper : r "isPureWrapper" = if s.isPureWrapper then some (.bool true) else none := by
      simp [← hr, Json.recordOf_append, Json.recordOf_field, Json.recordOf_fieldTrue]
    simp only [StatementFlags.read?, Option.bind_eq_bind, Option.bind_some,
      Json.required_bool hselect, Json.required_bool hinsert, Json.required_bool hupdate,
      Json.required_bool hdelete, Json.required_bool hmerge, Json.required_bool hopen,
      Json.withDefault_false hwrapper]
    rfl
  · simp only [List.map_append]
    exact ((((((Json.sublist_names_field _ _).append (Json.sublist_names_field _ _)).append
      (Json.sublist_names_field _ _)).append (Json.sublist_names_field _ _)).append
      (Json.sublist_names_field _ _)).append (Json.sublist_names_field _ _)).append
      (Json.sublist_names_fieldTrue _ _)

theorem isWritable_statementsToJson (s : Snapshot) : Json.IsWritable s.statementsToJson := by
  refine .object ?_
  simp only [StatementFlags.fields, List.forall_mem_append]
  exact ⟨⟨⟨⟨⟨⟨Json.areWritable_field _ (.bool _), Json.areWritable_field _ (.bool _)⟩,
    Json.areWritable_field _ (.bool _)⟩, Json.areWritable_field _ (.bool _)⟩,
    Json.areWritable_field _ (.bool _)⟩, Json.areWritable_field _ (.bool _)⟩,
    Json.areWritable_fieldTrue _ _⟩

/-- The numbers of the snapshot have the sizes of their fields, and its document is nested no deeper
than documents are read. -/
structure IsStorable (s : Snapshot) : Prop where
  version : s.formatVersion < UInt32.size
  sized : ∀ set ∈ s.resultSets, set.IsSized
  errors : ∀ p, s.parser = some p → p.errorCount < UInt64.size
  nesting : s.toJson.nesting ≤ Json.nestingLimit

theorem nesting_resultSet_lt
    {set : ResultSet} (hset : set ∈ s.resultSets) :
    set.toJson.nesting < s.toJson.nesting := by
  have hfield : ("resultSets", Json.array (s.resultSets.map ResultSet.toJson)) ∈
      Json.field "resultSets" (Json.ofList ResultSet.toJson s.resultSets) :=
    List.mem_singleton_self _
  have hmember : ∀ before after, ("resultSets", Json.array (s.resultSets.map ResultSet.toJson)) ∈
      before ++ Json.field "resultSets" (Json.ofList ResultSet.toJson s.resultSets) ++ after :=
    fun before after => List.mem_append_left after (List.mem_append_right before hfield)
  have hlt := fun before after =>
    Json.nesting_lt_of_mem_member (hmember before after) (List.mem_map_of_mem hset)
  simpa only [toJson, List.append_assoc] using hlt
    (Json.field "formatVersion" (.ofNat s.formatVersion) ++
      (Json.field "schema" (.text s.schema) ++ (Json.field "name" (.text s.name) ++
        Json.field "parameters" (Json.ofList Parameter.toJson s.parameters)))) _

theorem ofJson?_toJson
    (hs : s.IsStorable) :
    ofJson? s.toJson = some s := by
  have hsets : Json.asList? ResultSet.ofJson? (Json.ofList ResultSet.toJson s.resultSets) =
      some s.resultSets :=
    Json.asList?_ofList fun set hset => ResultSet.ofJson?_toJson (hs.sized set hset)
      ((nesting_resultSet_lt hset).trans_le hs.nesting).le
  have hparameters : Json.asList? Parameter.ofJson? (Json.ofList Parameter.toJson s.parameters) =
      some s.parameters :=
    Json.asList?_ofList fun p _ => p.ofJson?_toJson
  rw [ofJson?, toJson, Json.asRecord?_object _ (by decide)]
  · generalize hr : Json.recordOf _ = r
    have hversion : r "formatVersion" = some (.ofNat s.formatVersion) := by
      simp [← hr, Json.recordOf_append, Json.recordOf_field]
    have hschema : r "schema" = some (.text s.schema) := by
      simp [← hr, Json.recordOf_append, Json.recordOf_field]
    have hname : r "name" = some (.text s.name) := by
      simp [← hr, Json.recordOf_append, Json.recordOf_field]
    have hlist : r "parameters" = some (Json.ofList Parameter.toJson s.parameters) := by
      simp [← hr, Json.recordOf_append, Json.recordOf_field]
    have hresults : r "resultSets" = some (Json.ofList ResultSet.toJson s.resultSets) := by
      simp [← hr, Json.recordOf_append, Json.recordOf_field]
    have hexecuted : r "executedProcedures" =
        if s.executed.isEmpty then none else some (Json.ofList Descriptor.toJson s.executed) := by
      simp [← hr, Json.recordOf_append, Json.recordOf_field, Json.recordOf_fieldItems,
        Json.recordOf_fieldSome]
    have htargets : r "dependencies" = if s.dependencies.isEmpty then none
        else some (Json.ofList DependencyTarget.toJson s.dependencies) := by
      simp [← hr, Json.recordOf_append, Json.recordOf_field, Json.recordOf_fieldItems,
        Json.recordOf_fieldSome]
    have hstatements : r "statements" = some s.statementsToJson := by
      simp [← hr, Json.recordOf_append, Json.recordOf_field, Json.recordOf_fieldItems]
    have hparser : r "parser" = s.parser.map ParserReport.toJson := by
      simp [← hr, Json.recordOf_append, Json.recordOf_field, Json.recordOf_fieldItems,
        Json.recordOf_fieldSome]
    have hreport : ∀ p, s.parser = some p →
        p.toJson ≠ .null ∧ ParserReport.ofJson? p.toJson = some p :=
      fun p hp => ⟨by simp [ParserReport.toJson], ParserReport.ofJson?_toJson (hs.errors p hp)⟩
    simp only [Option.bind_eq_bind, Option.bind_some,
      Json.required_of_eq hversion (Json.asNatBelow?_ofNat hs.version),
      Json.required_text hschema, Json.required_text hname,
      Json.required_of_eq hlist hparameters, Json.required_of_eq hresults hsets,
      Json.withDefault_nil hexecuted fun d _ => Descriptor.ofJson?_toJson d,
      Json.withDefault_nil htargets fun t _ => DependencyTarget.ofJson?_toJson t,
      Json.required_of_eq hstatements (readStatements?_statementsToJson s),
      Json.maybe_of_eq_map hparser hreport]
    rfl
  · simp only [List.map_append]
    exact ((((((((Json.sublist_names_field _ _).append (Json.sublist_names_field _ _)).append
      (Json.sublist_names_field _ _)).append (Json.sublist_names_field _ _)).append
      (Json.sublist_names_field _ _)).append (Json.sublist_names_fieldItems _ _ _)).append
      (Json.sublist_names_fieldItems _ _ _)).append (Json.sublist_names_field _ _)).append
      (Json.sublist_names_fieldSome _ _ _)

theorem isWritable_toJson
    (hs : s.IsStorable) :
    Json.IsWritable s.toJson := by
  have hversion : Json.IsWritable (.ofNat s.formatVersion) := by
    have hsize : UInt32.size < UInt64.size := by decide
    exact .int (by simpa using hs.version.trans hsize)
  refine .object ?_
  simp only [List.forall_mem_append]
  exact ⟨⟨⟨⟨⟨⟨⟨⟨Json.areWritable_field _ hversion, Json.areWritable_field _ (.text _)⟩,
    Json.areWritable_field _ (.text _)⟩,
    Json.areWritable_field _ (Json.isWritable_ofList fun p _ => p.isWritable_toJson)⟩,
    Json.areWritable_field _
      (Json.isWritable_ofList fun set hset => ResultSet.isWritable_toJson (hs.sized set hset))⟩,
    Json.areWritable_fieldItems _ fun d _ => d.isWritable_toJson⟩,
    Json.areWritable_fieldItems _ fun t _ => t.isWritable_toJson⟩,
    Json.areWritable_field _ s.isWritable_statementsToJson⟩,
    Json.areWritable_fieldSome _ fun p hp => ParserReport.isWritable_toJson (hs.errors p hp)⟩

/-- Reads a snapshot from the bytes of a file. -/
def ofBytes? (bytes : ByteArray) : Option Snapshot :=
  String.fromUTF8? bytes >>= read?

theorem ofBytes?_canonicalBytes
    (hs : s.IsStorable) :
    ofBytes? s.canonicalBytes = some s := by
  have hplain := (isWritable_toJson hs).isPlain hs.nesting
  simp only [ofBytes?, canonicalBytes, canonicalText, read?, CacheEntries.fromUTF8?_toUTF8,
    Option.bind_eq_bind, Option.bind_some, Json.parse?_pretty hplain, ofJson?_toJson hs]

theorem canonicalBytes_inj
    {t : Snapshot} (hs : s.IsStorable) (ht : t.IsStorable) :
    s.canonicalBytes = t.canonicalBytes ↔ s = t := by
  refine ⟨fun h => ?_, congrArg _⟩
  have hread := ofBytes?_canonicalBytes hs
  rw [h, ofBytes?_canonicalBytes ht] at hread
  exact (Option.some.inj hread).symm

/-- The snapshots of two analyses are the same if these agree on what a snapshot keeps. -/
theorem ofAnalysis_eq_iff
    (a b : Analysis) :
    ofAnalysis a = ofAnalysis b ↔
      a.descriptor = b.descriptor ∧ a.parameters = b.parameters ∧
      a.content.resultSets = b.content.resultSets ∧ a.content.executed = b.content.executed ∧
      (Dependency.canonical a.dependencies).map DependencyTarget.ofDependency =
        (Dependency.canonical b.dependencies).map DependencyTarget.ofDependency ∧
      a.content.statements = b.content.statements ∧
      a.content.isPureWrapper = b.content.isPureWrapper ∧
      a.content.usedFallback = b.content.usedFallback ∧
      (a.content.usedFallback = true → a.content.parseErrors = b.content.parseErrors ∧
        a.content.firstParseError = b.content.firstParseError) := by
  obtain ⟨⟨schema, name⟩, -⟩ := a
  obtain ⟨⟨schema', name'⟩, -⟩ := b
  simp only [ofAnalysis, Snapshot.mk.injEq, ParserReport.ofContent?_eq_iff, Descriptor.mk.injEq,
    true_and, and_assoc]

end Snapshot

/-- The snapshot of the analysis can be stored. -/
structure Analysis.IsStorable (a : Analysis) : Prop where
  sized : ∀ set ∈ a.content.resultSets, set.IsSized
  errors : a.content.parseErrors < UInt64.size
  nesting : (Snapshot.ofAnalysis a).toJson.nesting ≤ Json.nestingLimit

namespace Snapshot

theorem isStorable_ofAnalysis
    {a : Analysis} (ha : a.IsStorable) :
    (ofAnalysis a).IsStorable where
  version := (by decide : currentVersion < UInt32.size)
  sized := ha.sized
  errors := by
    intro p hp
    simp only [ofAnalysis, ParserReport.ofContent?, Option.ite_none_right_eq_some,
      Option.some.injEq] at hp
    rw [← hp.2]
    exact ha.errors
  nesting := ha.nesting

/-- A snapshot is read from its bytes as it was written, and is written again as the same bytes.
Two analyses have the same bytes exactly if they agree on what a snapshot keeps. -/
theorem ofBytes?_canonicalBytes_ofAnalysis
    {a : Analysis} (ha : a.IsStorable) :
    ofBytes? (ofAnalysis a).canonicalBytes = some (ofAnalysis a) ∧
    (∀ s, ofBytes? (ofAnalysis a).canonicalBytes = some s →
      s.canonicalBytes = (ofAnalysis a).canonicalBytes) ∧
    ∀ b : Analysis, b.IsStorable →
      ((ofAnalysis a).canonicalBytes = (ofAnalysis b).canonicalBytes ↔
        a.descriptor = b.descriptor ∧ a.parameters = b.parameters ∧
        a.content.resultSets = b.content.resultSets ∧ a.content.executed = b.content.executed ∧
        (Dependency.canonical a.dependencies).map DependencyTarget.ofDependency =
          (Dependency.canonical b.dependencies).map DependencyTarget.ofDependency ∧
        a.content.statements = b.content.statements ∧
        a.content.isPureWrapper = b.content.isPureWrapper ∧
        a.content.usedFallback = b.content.usedFallback ∧
        (a.content.usedFallback = true → a.content.parseErrors = b.content.parseErrors ∧
          a.content.firstParseError = b.content.firstParseError)) := by
  have hread := ofBytes?_canonicalBytes (isStorable_ofAnalysis ha)
  refine ⟨hread, ?_, ?_⟩
  · intro s hs
    rw [hread] at hs
    rw [Option.some.inj hs]
  · intro b hb
    rw [canonicalBytes_inj (isStorable_ofAnalysis ha) (isStorable_ofAnalysis hb),
      ofAnalysis_eq_iff]

end Snapshot

/-- An analysis with a control character in its name and a nested document. -/
def Analysis.sampleNested (name : String) : Analysis where
  descriptor := ⟨"dbo", name ++ "\x01"⟩
  content := {
    resultSets := [{
      columns := [.node { name := "Items", kind := .nestedJson, maxLength := some (-1) }
        [.leaf { name := "Id", sqlType := some "int" }]] }] }

theorem Analysis.isStorable_sampleNested
    (name : String) (hname : name ∈ ["List", "list"]) :
    (sampleNested name).IsStorable where
  sized := by
    simp [sampleNested, ResultSet.IsSized, ColumnFacts.IsSized, Column.walkAll, Column.walk,
      Column.leaf]
  errors := (by decide : 0 < UInt64.size)
  nesting := by
    revert name
    decide +kernel

theorem Snapshot.ofBytes?_canonicalBytes_ofAnalysis_nested :
    ofBytes? (ofAnalysis (.sampleNested "List")).canonicalBytes =
      some (ofAnalysis (.sampleNested "List")) ∧
    (ofAnalysis (.sampleNested "List")).canonicalBytes ≠
      (ofAnalysis (.sampleNested "list")).canonicalBytes := by
  obtain ⟨hread, -, hdistinct⟩ :=
    ofBytes?_canonicalBytes_ofAnalysis (Analysis.isStorable_sampleNested "List" (by decide))
  refine ⟨hread, ?_⟩
  rw [Ne, hdistinct _ (Analysis.isStorable_sampleNested "list" (by decide))]
  rintro ⟨hname, -⟩
  revert hname
  decide

end SqlSnapshot
