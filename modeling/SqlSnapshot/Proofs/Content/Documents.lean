import SqlSnapshot.Content.Basic
import SqlSnapshot.Proofs.Json.Records

/-!
# Content read back

What is left out of a document when it is absent, false or empty takes just that value when the
document is read.  So every part of the content of a procedure is given back as it was written, a
column with the whole tree below it.
-/

namespace SqlSnapshot

/-! ## Columns -/

theorem ExpressionKind.ofJson?_name (k : ExpressionKind) : ofJson? (.text k.name) = some k := by
  cases k <;> rfl

/-- The length is a number of 32 bits. -/
def ColumnFacts.IsSized (f : ColumnFacts) : Prop :=
  ∀ n, f.maxLength = some n → -2147483648 ≤ n ∧ n ≤ 2147483647

namespace Column

variable {f : ColumnFacts} {c : Column} {cs : List Column}

theorem toJsonAll_eq_map (cs : List Column) : toJsonAll cs = cs.map toJson := by
  induction cs with
  | nil => rfl
  | cons c cs ih => rw [toJsonAll, ih, List.map_cons]

theorem walkAll_eq_flatMap (cs : List Column) : walkAll cs = cs.flatMap walk := by
  induction cs with
  | nil => rfl
  | cons c cs ih => rw [walkAll, ih, List.flatMap_cons]

theorem toJson_node
    (f : ColumnFacts) (cs : List Column) :
    (node f cs).toJson = .object (factFields f ++ Json.fieldItems "columns" cs toJson) := by
  cases cs with
  | nil => simp [toJson, toJsonAll, Json.fieldItems]
  | cons c cs => simp [toJson, toJsonAll, toJsonAll_eq_map, Json.fieldItems, Json.field]

theorem sublist_names_factFields
    (f : ColumnFacts) :
    ((factFields f).map (·.1)).Sublist (fieldNames.take 16) := by
  simp only [factFields, List.map_append]
  exact (((((((((((((((Json.sublist_names_field _ _).append
    (Json.sublist_names_field _ _)).append (Json.sublist_names_fieldSome _ _ _)).append
    (Json.sublist_names_fieldSome _ _ _)).append (Json.sublist_names_fieldSome _ _ _)).append
    (Json.sublist_names_fieldSome _ _ _)).append (Json.sublist_names_fieldSome _ _ _)).append
    (Json.sublist_names_fieldSome _ _ _)).append (Json.sublist_names_fieldSome _ _ _)).append
    (Json.sublist_names_fieldSome _ _ _)).append (Json.sublist_names_fieldSome _ _ _)).append
    (Json.sublist_names_fieldSome _ _ _)).append (Json.sublist_names_fieldSome _ _ _)).append
    (Json.sublist_names_fieldSome _ _ _)).append (Json.sublist_names_fieldSome _ _ _)).append
    (Json.sublist_names_fieldSome _ _ _)

theorem readFacts?_factFields
    (hf : f.IsSized) (others : List (String × Json))
    (hothers : ∀ key ∈ fieldNames.take 16, Json.recordOf others key = none) :
    readFacts? (Json.recordOf (factFields f ++ others)) = some f := by
  have hrecord : ∀ key ∈ fieldNames.take 16,
      Json.recordOf (factFields f ++ others) key = Json.recordOf (factFields f) key := by
    intro key hkey
    rw [Json.recordOf_append, hothers key hkey, Option.or_none]
  generalize Json.recordOf (factFields f ++ others) = r at hrecord
  simp only [fieldNames, List.take, List.forall_mem_cons, factFields, Json.recordOf_append,
    Json.recordOf_field, Json.recordOf_fieldSome, String.reduceEq, if_true, if_false,
    Option.none_or, Option.or_none] at hrecord
  obtain ⟨hname, hkind, hschema, htable, hcolumn, halias, hcast, htype, hlength, hnullable, hforced,
    hnested, hjson, harray, haggregate, hfunction, -⟩ := hrecord
  have hsized : ∀ n, f.maxLength = some n →
      Json.int n ≠ .null ∧ Json.asInt32? (.int n) = some n := by
    intro n hn
    exact ⟨by simp, by simp [Json.asInt32?, Json.asIntIn?, hf n hn]⟩
  simp only [readFacts?, Option.bind_eq_bind, Option.bind_some,
    Json.required_text hname,
    Json.required_of_eq hkind (ExpressionKind.ofJson?_name f.kind), Json.maybe_text hschema,
    Json.maybe_text htable, Json.maybe_text hcolumn, Json.maybe_text halias, Json.maybe_text hcast,
    Json.maybe_text htype, Json.maybe_of_eq_map hlength hsized, Json.maybe_bool hnullable,
    Json.maybe_bool hforced, Json.maybe_bool hnested, Json.maybe_bool hjson, Json.maybe_bool harray,
    Json.maybe_bool haggregate, Json.maybe_text hfunction]
  rfl

/-- A column is read by any reader that goes as deep as its document. -/
theorem readWithin?_toJson
    {depth : Nat} (hc : ∀ f ∈ c.walk, f.IsSized) (hdepth : c.toJson.nesting ≤ depth) :
    readWithin? depth c.toJson = some c := by
  induction depth generalizing c with
  | zero =>
    obtain ⟨f, cs⟩ := c
    rw [toJson_node, Json.nesting] at hdepth
    omega
  | succ depth ih =>
    obtain ⟨f, cs⟩ := c
    rw [walk, List.forall_mem_cons, walkAll_eq_flatMap] at hc
    rw [toJson_node] at hdepth ⊢
    have hchildren : ∀ d ∈ cs, readWithin? depth d.toJson = some d := by
      intro d hd
      have hmember : ("columns", .array (cs.map toJson)) ∈
          factFields f ++ Json.fieldItems "columns" cs toJson :=
        List.mem_append_right _ (by simp [Json.fieldItems, List.ne_nil_of_mem hd])
      have hnesting := Json.nesting_lt_of_mem_member hmember (List.mem_map_of_mem hd)
      exact ih (fun g hg => hc.2 g (List.mem_flatMap.mpr ⟨d, hd, hg⟩)) (by omega)
    rw [readWithin?, Json.asRecord?_object _ (by decide)]
    · have hfacts := readFacts?_factFields hc.1 (Json.fieldItems "columns" cs toJson)
        (by simp [fieldNames, Json.recordOf_fieldItems])
      generalize hr : Json.recordOf _ = r at hfacts
      have hcolumns : r "columns" = if cs.isEmpty then none else some (Json.ofList toJson cs) := by
        simp [← hr, factFields, Json.recordOf_append, Json.recordOf_field, Json.recordOf_fieldSome,
          Json.recordOf_fieldItems]
      simp only [Option.bind_eq_bind, Option.bind_some, hfacts,
        Json.withDefault_nil hcolumns hchildren]
      rfl
    · rw [List.map_append]
      exact (sublist_names_factFields f).append (Json.sublist_names_fieldItems _ _ _)

theorem ofJson?_toJson
    (hc : ∀ f ∈ c.walk, f.IsSized) (hnesting : c.toJson.nesting ≤ Json.nestingLimit) :
    ofJson? c.toJson = some c :=
  readWithin?_toJson hc hnesting

theorem areWritable_factFields
    (hf : f.IsSized) :
    Json.AreWritable (factFields f) := by
  have htext : ∀ name (value : Option String),
      Json.AreWritable (Json.fieldSome name value .text) :=
    fun name value => Json.areWritable_fieldSome name fun s _ => .text s
  have hbool : ∀ name (value : Option Bool), Json.AreWritable (Json.fieldSome name value .bool) :=
    fun name value => Json.areWritable_fieldSome name fun b _ => .bool b
  have hlength : Json.AreWritable (Json.fieldSome "maxLength" f.maxLength .int) := by
    refine Json.areWritable_fieldSome _ fun n hn => .int ?_
    have hbound : UInt64.size = 18446744073709551616 := rfl
    have hsize := hf n hn
    omega
  simp only [factFields, Json.AreWritable, List.forall_mem_append]
  exact ⟨⟨⟨⟨⟨⟨⟨⟨⟨⟨⟨⟨⟨⟨⟨Json.areWritable_field _ (.text _), Json.areWritable_field _ (.text _)⟩,
    htext _ _⟩, htext _ _⟩, htext _ _⟩, htext _ _⟩, htext _ _⟩, htext _ _⟩, hlength⟩, hbool _ _⟩,
    hbool _ _⟩, hbool _ _⟩, hbool _ _⟩, hbool _ _⟩, hbool _ _⟩, htext _ _⟩

mutual

theorem isWritable_toJson
    {c : Column} (hc : ∀ f ∈ c.walk, f.IsSized) :
    Json.IsWritable c.toJson := by
  cases c with
  | node f cs =>
    rw [walk, List.forall_mem_cons] at hc
    rw [toJson_node]
    exact .object (Json.areWritable_append (areWritable_factFields hc.1)
      (Json.areWritable_fieldItems _ (isWritable_toJson_of_mem hc.2)))

theorem isWritable_toJson_of_mem
    {cs : List Column} (hcs : ∀ f ∈ walkAll cs, f.IsSized) :
    ∀ c ∈ cs, Json.IsWritable c.toJson := by
  cases cs with
  | nil => exact List.forall_mem_nil _
  | cons c cs =>
    rw [walkAll, List.forall_mem_append] at hcs
    exact List.forall_mem_cons.mpr
      ⟨isWritable_toJson hcs.1, isWritable_toJson_of_mem hcs.2⟩

end

end Column

/-! ## Result sets -/

namespace ResultSet

/-- The lengths of all columns are numbers of 32 bits. -/
def IsSized (s : ResultSet) : Prop :=
  ∀ f ∈ Column.walkAll s.columns, f.IsSized

variable {s : ResultSet}

theorem nesting_column_lt
    {c : Column} (hc : c ∈ s.columns) :
    c.toJson.nesting < s.toJson.nesting := by
  rw [toJson, Column.toJsonAll_eq_map]
  exact Json.nesting_lt_of_mem_member (List.mem_append_right _ (List.mem_singleton_self _))
    (List.mem_map_of_mem hc)

theorem ofJson?_toJson
    (hs : s.IsSized) (hnesting : s.toJson.nesting ≤ Json.nestingLimit) :
    ofJson? s.toJson = some s := by
  have hcolumns : Json.asList? Column.ofJson? (Json.ofList Column.toJson s.columns) =
      some s.columns := by
    refine Json.asList?_ofList fun c hc => Column.ofJson?_toJson ?_ ?_
    · intro f hf
      refine hs f ?_
      rw [Column.walkAll_eq_flatMap]
      exact List.mem_flatMap.mpr ⟨c, hc, hf⟩
    · exact ((nesting_column_lt hc).trans_le hnesting).le
  rw [ofJson?, toJson, Column.toJsonAll_eq_map, Json.asRecord?_object _ (by decide)]
  · generalize hr : Json.recordOf _ = r
    have hjson : r "returnsJson" = some (.bool s.returnsJson) := by
      simp [← hr, Json.recordOf_append, Json.recordOf_field]
    have harray : r "returnsJsonArray" = some (.bool s.returnsJsonArray) := by
      simp [← hr, Json.recordOf_append, Json.recordOf_field]
    have hroot : r "jsonRootProperty" = s.jsonRoot.map Json.text := by
      simp [← hr, Json.recordOf_append, Json.recordOf_field, Json.recordOf_fieldSome,
        Json.recordOf_fieldTrue]
    have hnulls : r "includeNullValues" =
        if s.includeNullValues then some (.bool true) else none := by
      simp [← hr, Json.recordOf_append, Json.recordOf_field, Json.recordOf_fieldSome,
        Json.recordOf_fieldTrue]
    have hschema : r "execSourceSchema" = s.execSchema.map Json.text := by
      simp [← hr, Json.recordOf_append, Json.recordOf_field, Json.recordOf_fieldSome,
        Json.recordOf_fieldTrue]
    have hprocedure : r "execSourceProcedure" = s.execProcedure.map Json.text := by
      simp [← hr, Json.recordOf_append, Json.recordOf_field, Json.recordOf_fieldSome,
        Json.recordOf_fieldTrue]
    have hitems : r "columns" = some (Json.ofList Column.toJson s.columns) := by
      simp [← hr, Json.recordOf_append, Json.recordOf_field, Json.recordOf_fieldSome,
        Json.recordOf_fieldTrue, Json.ofList]
    simp only [Option.bind_eq_bind, Option.bind_some, Json.withDefault_of_eq [] hitems hcolumns,
      Json.required_bool hjson,
      Json.required_bool harray, Json.maybe_text hroot,
      Json.withDefault_false hnulls, Json.maybe_text hschema, Json.maybe_text hprocedure]
    rfl
  · simp only [List.map_append]
    exact ((((((Json.sublist_names_field _ _).append (Json.sublist_names_field _ _)).append
      (Json.sublist_names_fieldSome _ _ _)).append (Json.sublist_names_fieldTrue _ _)).append
      (Json.sublist_names_fieldSome _ _ _)).append (Json.sublist_names_fieldSome _ _ _)).append
      (Json.sublist_names_field _ _)

theorem isWritable_toJson
    (hs : s.IsSized) :
    Json.IsWritable s.toJson := by
  have htext : ∀ name (value : Option String),
      Json.AreWritable (Json.fieldSome name value .text) :=
    fun name value => Json.areWritable_fieldSome name fun s _ => .text s
  rw [toJson, Column.toJsonAll_eq_map]
  refine .object ?_
  simp only [List.forall_mem_append]
  exact ⟨⟨⟨⟨⟨⟨Json.areWritable_field _ (.bool _), Json.areWritable_field _ (.bool _)⟩, htext _ _⟩,
    Json.areWritable_fieldTrue _ _⟩, htext _ _⟩, htext _ _⟩,
    Json.areWritable_field _ (Json.isWritable_ofList (Column.isWritable_toJson_of_mem hs))⟩

end ResultSet

/-! ## Parameters and names -/

namespace Parameter

theorem ofJson?_toJson (p : Parameter) : ofJson? p.toJson = some p := by
  rw [ofJson?, toJson, Json.asRecord?_object _ (by decide)]
  · generalize hr : Json.recordOf _ = r
    have hname : r "name" = some (.text p.name) := by
      simp [← hr, Json.recordOf_append, Json.recordOf_field]
    have htype : r "sqlTypeName" = some (.text p.sqlType) := by
      simp [← hr, Json.recordOf_append, Json.recordOf_field]
    have houtput : r "isOutput" = some (.bool p.isOutput) := by
      simp [← hr, Json.recordOf_append, Json.recordOf_field]
    have hdefault : r "hasDefault" = some (.bool p.hasDefault) := by
      simp [← hr, Json.recordOf_append, Json.recordOf_field]
    have hreadonly : r "isReadonly" = if p.isReadonly then some (.bool true) else none := by
      simp [← hr, Json.recordOf_append, Json.recordOf_field, Json.recordOf_fieldTrue]
    simp only [Option.bind_eq_bind, Option.bind_some,
      Json.required_text hname,
      Json.required_text htype,
      Json.required_bool houtput,
      Json.required_bool hdefault, Json.withDefault_false hreadonly]
    rfl
  · simp only [List.map_append]
    exact ((((Json.sublist_names_field _ _).append (Json.sublist_names_field _ _)).append
      (Json.sublist_names_field _ _)).append (Json.sublist_names_field _ _)).append
      (Json.sublist_names_fieldTrue _ _)

theorem isWritable_toJson (p : Parameter) : Json.IsWritable p.toJson := by
  refine .object ?_
  simp only [List.forall_mem_append]
  exact ⟨⟨⟨⟨Json.areWritable_field _ (.text _), Json.areWritable_field _ (.text _)⟩,
    Json.areWritable_field _ (.bool _)⟩, Json.areWritable_field _ (.bool _)⟩,
    Json.areWritable_fieldTrue _ _⟩

end Parameter

namespace Descriptor

theorem ofJson?_toJson (d : Descriptor) : ofJson? d.toJson = some d := by
  rw [ofJson?, toJson, Json.asRecord?_object _ (by decide)]
  · generalize hr : Json.recordOf _ = r
    have hschema : r "schema" = some (.text d.schema) := by
      simp [← hr, Json.recordOf_append, Json.recordOf_field]
    have hname : r "name" = some (.text d.name) := by
      simp [← hr, Json.recordOf_append, Json.recordOf_field]
    simp only [Option.bind_eq_bind, Option.bind_some,
      Json.required_text hschema,
      Json.required_text hname]
    rfl
  · rw [List.map_append]
    exact (Json.sublist_names_field _ _).append (Json.sublist_names_field _ _)

theorem isWritable_toJson (d : Descriptor) : Json.IsWritable d.toJson :=
  .object (Json.areWritable_append (Json.areWritable_field _ (.text _))
    (Json.areWritable_field _ (.text _)))

end Descriptor

end SqlSnapshot
