import Mathlib.Data.List.TakeWhile
import SqlSnapshot.Proofs.Enrichment.Priority
import SqlSnapshot.Proofs.Filter.QuotedNames
import SqlSnapshot.Proofs.Text.Digits

/-!
# Lengths of types

The length of a table's column is computed from the bytes that the table stores, and the length of a
cast is read from the text of its target.  The two agree on the text in which a column's type is
written: what is printed in parentheses is read back, and where nothing is printed that could be
read as a length, the column has none.  The name of the type must not have a parenthesis of its own,
in which a length could be read.
-/

namespace SqlSnapshot

open Text

/-! ## Numbers read back -/

/-- The reader of digits goes on from any value. -/
theorem foldlM_digits
    {ds : List Char} (hds : ∀ c ∈ ds, isDigit c = true) (n : Nat) :
    ds.foldlM (fun n c => if '0' ≤ c ∧ c ≤ '9' then some (n * 10 + (c.toNat - 48)) else none) n =
      some (ds.foldl (fun n d => n * 10 + (d.toNat - 48)) n) := by
  induction ds generalizing n with
  | nil => rfl
  | cons d ds ih =>
    have hdigit : '0' ≤ d ∧ d ≤ '9' := by simpa [isDigit] using hds d List.mem_cons_self
    rw [List.foldlM_cons, if_pos hdigit, List.foldl_cons]
    exact ih (fun c hc => hds c (List.mem_cons_of_mem d hc)) _

theorem digitsValue?_toDigits (n : Nat) : digitsValue? (Nat.toDigits 10 n) = some n := by
  have hnonempty : (Nat.toDigits 10 n).isEmpty = false :=
    List.isEmpty_eq_false_iff.mpr Nat.toDigits_ne_nil
  rw [digitsValue?, hnonempty, if_neg Bool.false_ne_true,
    foldlM_digits fun c hc => isDigit_of_mem_toDigits hc, foldl_digits_eq,
    Nat.ofDigitChars_ten_toDigits]

/-- An integer of 32 bits is read back from its decimal text. -/
theorem integerValue?_toString
    {n : Int} (hn : -2147483648 ≤ n ∧ n ≤ 2147483647) :
    integerValue? (toString n).toList = some n := by
  rw [Int.toString_eq_repr, Int.repr_eq_if]
  split
  · rename_i hnonneg
    have hsign : ∀ c ∈ Nat.toDigits 10 n.toNat, c ≠ '-' ∧ c ≠ '+' := by
      intro c hc
      have hdigit := isDigit_of_mem_toDigits hc
      constructor
      · rintro rfl
        exact absurd hdigit (by decide)
      · rintro rfl
        exact absurd hdigit (by decide)
    have hvalue := digitsValue?_toDigits n.toNat
    rw [Nat.toList_repr]
    generalize Nat.toDigits 10 n.toNat = ds at hsign hvalue
    unfold integerValue?
    split
    · exact absurd rfl (hsign _ List.mem_cons_self).1
    · exact absurd rfl (hsign _ List.mem_cons_self).2
    · rw [hvalue]
      change (if -2147483648 ≤ (n.toNat : Int) ∧ (n.toNat : Int) ≤ 2147483647 then
        some (n.toNat : Int) else none) = some n
      rw [Int.toNat_of_nonneg hnonneg, if_pos hn]
  · rename_i hnegative
    have hvalue := digitsValue?_toDigits (-n).toNat
    have hopposite : -((-n).toNat : Int) = n := by omega
    rw [String.toList_append, Nat.toList_repr]
    unfold integerValue?
    change ((digitsValue? (Nat.toDigits 10 (-n).toNat)).map fun m => -(m : Int)).bind _ = _
    rw [hvalue]
    change (if -2147483648 ≤ -((-n).toNat : Int) ∧ -((-n).toNat : Int) ≤ 2147483647 then
      some (-((-n).toNat : Int)) else none) = some n
    rw [hopposite, if_pos hn]

/-! ## Lengths in type texts -/

/-- The length that the argument of a type stands for. -/
def argumentLength? (argument : List Char) : Option Int :=
  if sameAscii (String.ofList argument) "max" then some (-1) else integerValue? argument

theorem typeLength?_of_notMem {s : String} (h : '(' ∉ s.toList) : typeLength? s = none := by
  have hafter : s.toList.dropWhile (· != '(') = [] := by
    rw [List.dropWhile_eq_nil_iff]
    exact fun c hc => bne_iff_ne.mpr (ne_of_mem_of_not_mem hc h)
  rw [typeLength?]
  dsimp only
  rw [hafter]

theorem typeLength?_of_mem
    {s : String} {before after : List Char} (hs : s.toList = before ++ '(' :: after)
    (hbefore : '(' ∉ before) :
    typeLength? s =
      (lengthTypes.lookup (asciiLower (String.ofList (trimBoth isBlank before)))).bind fun _ =>
        argumentLength? (trimBoth isBlank (trimEnd (· == ')') after)) := by
  have hname : ∀ c ∈ before, (c != '(') = true :=
    fun c hc => bne_iff_ne.mpr (ne_of_mem_of_not_mem hc hbefore)
  have htake : s.toList.takeWhile (· != '(') = before := by
    rw [hs, List.takeWhile_append_of_pos hname, List.takeWhile_cons]
    exact List.append_nil before
  have hdrop : s.toList.dropWhile (· != '(') = '(' :: after := by
    rw [hs, List.dropWhile_append_of_pos hname, List.dropWhile_cons]
    rfl
  rw [typeLength?]
  dsimp only
  rw [htake, hdrop]
  rfl

/-! ### Lengths as they are written -/

theorem mem_lengthText {n : Int} {c : Char} (h : c ∈ (lengthText n).toList) :
    isBlank c = false ∧ (c == ')') = false := by
  have hmax : "max".toList.all (fun c => !isBlank c && !(c == ')')) = true := by decide
  unfold lengthText at h
  split at h
  · simpa using List.all_eq_true.mp hmax c h
  · rcases eq_or_isDigit_of_mem_toString h with rfl | hdigit
    · decide
    · refine ⟨isBlank_of_isDigit hdigit, ?_⟩
      rw [beq_eq_false_iff_ne]
      rintro rfl
      exact absurd hdigit (by decide)

/-- The argument is what stands between the parentheses. -/
theorem trimBoth_lengthText (n : Int) :
    trimBoth isBlank (trimEnd (· == ')') ((lengthText n).toList ++ [')'])) =
      (lengthText n).toList := by
  have hlast : ∀ c ∈ (lengthText n).toList.getLast?, (c == ')') = false :=
    fun c hc => (mem_lengthText (List.mem_of_getLast? hc)).2
  have hclosing : trimEnd (· == ')') [')'] = [] := by decide
  rw [trimEnd_append hlast, hclosing, List.append_nil]
  exact (isTrimmed_of_forall fun c hc => (mem_lengthText hc).1).trimBoth_eq

theorem toLower_of_isDigit {c : Char} (h : isDigit c = true) : c.toLower = c := by
  apply toLower_of_not_capital
  have hle : c.toNat ≤ 57 := by
    simp only [isDigit, Bool.and_eq_true, decide_eq_true_eq] at h
    exact h.2
  unfold isLatinCapital
  omega

theorem sameAscii_toString_max (n : Int) : sameAscii (toString n) "max" = false := by
  rw [Bool.eq_false_iff]
  intro hsame
  have hletter : 'm' ∈ (toString n).toList.map Char.toLower := by
    rw [eq_of_beq hsame]
    decide
  obtain ⟨c, hc, hlower⟩ := List.mem_map.mp hletter
  rcases eq_or_isDigit_of_mem_toString hc with rfl | hdigit
  · exact absurd hlower (by decide)
  · rw [toLower_of_isDigit hdigit] at hlower
    rw [hlower] at hdigit
    exact absurd hdigit (by decide)

theorem argumentLength?_lengthText
    {n : Int} (hn : -2147483648 ≤ n ∧ n ≤ 2147483647) :
    argumentLength? (lengthText n).toList = some n := by
  unfold lengthText
  split
  · rename_i hmax
    rw [hmax]
    decide
  · rw [argumentLength?, String.ofList_toList, sameAscii_toString_max,
      if_neg Bool.false_ne_true, integerValue?_toString hn]

/-! ## Columns of tables -/

namespace TableColumn

variable {c : TableColumn}

/-- The length is a number of 32 bits. -/
def IsSized (c : TableColumn) : Prop :=
  ∀ n, c.maxLength = some n → -2147483648 ≤ n ∧ n ≤ 2147483647

theorem IsSized.charLength
    (h : c.IsSized) {n : Int} (hn : c.charLength = some n) :
    -2147483648 ≤ n ∧ n ≤ 2147483647 := by
  simp only [TableColumn.charLength, Option.bind_eq_bind, Option.bind_eq_some_iff,
    Option.pure_def, Option.some.injEq] at hn
  obtain ⟨stored, hstored, wide, -, hn⟩ := hn
  have hbounds := h stored hstored
  split at hn <;> omega

theorem notMem_baseType (h : '(' ∉ c.typeName.toList) : '(' ∉ c.baseType.toList := by
  rw [baseType, toList_asciiLower, List.mem_map]
  rintro ⟨d, hd, hlower⟩
  rw [toLower_eq_iff (by decide) (by decide)] at hlower
  exact h (hlower ▸ hd)

@[simp]
theorem asciiLower_baseType (c : TableColumn) : asciiLower c.baseType = c.baseType :=
  asciiLower_asciiLower c.typeName

/-- The types whose names something may be written behind. -/
def parameterTypes : List String :=
  lengthTypes.map (·.1) ++ ["decimal", "numeric", "datetime2", "datetimeoffset", "time"]

theorem mem_parameterTypes_of_lookup
    {wide : Bool} (h : lengthTypes.lookup c.baseType = some wide) :
    c.baseType ∈ parameterTypes := by
  obtain ⟨front, back, hsplit, -⟩ := List.lookup_eq_some_iff.mp h
  rw [parameterTypes, hsplit]
  simp

/-- Nothing is written behind the name of a type, or parameters in parentheses are. -/
theorem sqlTypeName_of_lookup_eq_none
    (h : lengthTypes.lookup c.baseType = none) :
    c.sqlTypeName = c.baseType ∨
      c.baseType ∈ parameterTypes ∧
        ∃ parameters : String, c.sqlTypeName = c.baseType ++ "(" ++ parameters ++ ")" := by
  unfold sqlTypeName
  dsimp only
  rw [h, if_neg (by decide)]
  split
  · rename_i hdecimal
    split
    · rename_i precision scale _ _
      refine .inr ⟨by rcases hdecimal with hbase | hbase <;> rw [hbase] <;> decide, ?_⟩
      refine ⟨toString precision ++ "," ++ toString scale, ?_⟩
      simp only [← String.append_assoc]
      rfl
    · exact .inl rfl
  · split
    · rename_i htime
      split
      · rename_i scale _
        refine .inr ⟨by rcases htime with hbase | hbase | hbase <;> rw [hbase] <;> decide, ?_⟩
        exact ⟨toString scale, rfl⟩
      · exact .inl rfl
    · exact .inl rfl

/-- What is written in parentheses counts as a length if the type has one. -/
theorem typeLength?_parameters
    (hbase : c.baseType ∈ parameterTypes) (parameters : String) :
    typeLength? (c.baseType ++ "(" ++ parameters ++ ")") =
      (lengthTypes.lookup c.baseType).bind fun _ =>
        argumentLength? (trimBoth isBlank (trimEnd (· == ')') (parameters.toList ++ [')']))) := by
  have hplain : ∀ name ∈ parameterTypes,
      '(' ∉ name.toList ∧ trimBoth isBlank name.toList = name.toList := by
    decide +kernel
  obtain ⟨hparen, htrimmed⟩ := hplain _ hbase
  have htext : (c.baseType ++ "(" ++ parameters ++ ")").toList =
      c.baseType.toList ++ '(' :: (parameters.toList ++ [')']) := by
    simp only [String.toList_append, List.append_assoc]
    rfl
  rw [typeLength?_of_mem htext hparen, htrimmed, String.ofList_toList, asciiLower_baseType]

theorem charLength_of_lookup_eq_none
    (h : lengthTypes.lookup c.baseType = none) : c.charLength = none := by
  rw [charLength, h]
  cases c.maxLength <;> rfl

/-- The length in the text of a column's type is the length of the column. -/
theorem typeLength?_sqlTypeName
    (hname : '(' ∉ c.typeName.toList) (hsized : c.IsSized) :
    typeLength? c.sqlTypeName = c.charLength := by
  have hplain : typeLength? c.baseType = none := typeLength?_of_notMem (notMem_baseType hname)
  cases hlookup : lengthTypes.lookup c.baseType with
  | some wide =>
    have hbase := mem_parameterTypes_of_lookup hlookup
    cases hlength : c.charLength with
    | some length =>
      have htext : c.sqlTypeName = c.baseType ++ "(" ++ lengthText length ++ ")" := by
        simp only [sqlTypeName, hlookup, hlength]
        rfl
      rw [htext, typeLength?_parameters hbase, hlookup, Option.bind_some, trimBoth_lengthText,
        argumentLength?_lengthText (hsized.charLength hlength)]
    | none =>
      have htext : c.sqlTypeName = c.baseType := by simp [sqlTypeName, hlookup, hlength]
      rw [htext, hplain]
  | none =>
    rw [charLength_of_lookup_eq_none hlookup]
    rcases sqlTypeName_of_lookup_eq_none hlookup with htext | ⟨hbase, parameters, htext⟩
    · rw [htext, hplain]
    · rw [htext, typeLength?_parameters hbase, hlookup, Option.bind_none]

/-- A length in the name of the type is no length of the column. -/
example :
    let c : TableColumn := ⟨"Name", "varchar(50)", some 50, none, none, true⟩
    typeLength? c.sqlTypeName = some 50 ∧ c.charLength = none := by
  decide +kernel

end TableColumn

/-! ## Columns of results -/

namespace ColumnFacts

variable {f : ColumnFacts} {columns? : String → String → Option (List TableColumn)}
  {inJson : Bool}

@[simp]
theorem targetOfCast?_resolved : (f.resolved columns? inJson).targetOfCast? = f.targetOfCast? := by
  unfold resolved
  cases typeSource (f.tableColumn? columns?) inJson f <;> rfl

@[simp]
theorem tableColumn?_resolved :
    (f.resolved columns? inJson).tableColumn? columns? = f.tableColumn? columns? := by
  rw [resolved]
  cases typeSource (f.tableColumn? columns?) inJson f <;> rfl

theorem maxLength_resolved_of_cast
    {target : String} (h : f.targetOfCast? = some target) :
    (f.resolved columns? inJson).maxLength = typeLength? target := by
  simp [resolved, typeSource, h, withTypeFrom, withType]

theorem targetOfCast?_of_tableColumn
    {column : TableColumn} (h : f.tableColumn? columns? = some column) :
    f.targetOfCast? = none := by
  obtain ⟨binding, hbinding, -⟩ := Option.bind_eq_some_iff.mp h
  rw [targetOfCast?, isCast_of_tableBinding? hbinding, if_neg Bool.false_ne_true]

theorem maxLength_resolved_of_table
    {column : TableColumn} (h : f.tableColumn? columns? = some column) :
    (f.resolved columns? inJson).maxLength = column.charLength := by
  simp [resolved, typeSource, targetOfCast?_of_tableColumn h, h, withTypeFrom, withType]

end ColumnFacts

section Trees

variable {columns? : String → String → Option (List TableColumn)} {g : ColumnFacts}

mutual

theorem Column.exists_of_mem_walk_resolved
    {inJson : Bool} {c : Column} (h : g ∈ (c.resolved columns? inJson).walk) :
    ∃ f inJson, g = ColumnFacts.resolved columns? inJson f := by
  cases c with
  | node facts children =>
    rw [Column.resolved, Column.walk, List.mem_cons] at h
    rcases h with rfl | hbelow
    · exact ⟨facts, inJson, rfl⟩
    · exact Column.exists_of_mem_walkAll_resolvedAll hbelow

theorem Column.exists_of_mem_walkAll_resolvedAll
    {inJson : Bool} {cs : List Column}
    (h : g ∈ Column.walkAll (Column.resolvedAll columns? inJson cs)) :
    ∃ f inJson, g = ColumnFacts.resolved columns? inJson f := by
  cases cs with
  | nil =>
    rw [Column.resolvedAll, Column.walkAll] at h
    cases h
  | cons c cs =>
    rw [Column.resolvedAll, Column.walkAll, List.mem_append] at h
    rcases h with hfirst | hothers
    · exact Column.exists_of_mem_walk_resolved hfirst
    · exact Column.exists_of_mem_walkAll_resolvedAll hothers

end

theorem Analysis.exists_of_mem_walkColumns_resolved
    {a : Analysis} (h : g ∈ (a.resolved columns?).content.walkColumns) :
    ∃ f inJson, g = ColumnFacts.resolved columns? inJson f := by
  obtain ⟨set, hset, hg⟩ := List.mem_flatMap.mp h
  obtain ⟨original, -, rfl⟩ := List.mem_map.mp hset
  exact Column.exists_of_mem_walkAll_resolvedAll hg

theorem Analysis.maxLength_of_cast
    {a : Analysis} (h : g ∈ (a.resolved columns?).content.walkColumns) {target : String}
    (hcast : g.targetOfCast? = some target) : g.maxLength = typeLength? target := by
  obtain ⟨f, inJson, rfl⟩ := exists_of_mem_walkColumns_resolved h
  rw [ColumnFacts.targetOfCast?_resolved] at hcast
  exact ColumnFacts.maxLength_resolved_of_cast hcast

theorem Analysis.maxLength_of_table
    {a : Analysis} (h : g ∈ (a.resolved columns?).content.walkColumns) {column : TableColumn}
    (hcolumn : g.tableColumn? columns? = some column) : g.maxLength = column.charLength := by
  obtain ⟨f, inJson, rfl⟩ := exists_of_mem_walkColumns_resolved h
  rw [ColumnFacts.tableColumn?_resolved] at hcolumn
  exact ColumnFacts.maxLength_resolved_of_table hcolumn

end Trees

namespace Enrichment

variable {σ ε : Type} {provider : Lookup (StateT σ (Except ε))} {state : σ} {tables : TableCache}
  {f : ColumnFacts} {column : TableColumn}

/-- The columns of a table as an enricher remembers them. -/
def rememberedColumns? (tables : TableCache) (schema table : String) : Option (List TableColumn) :=
  (tables.lookup (objectKey schema table)).join

theorem tableColumn?_answerIn
    (h : f.tableColumn? (rememberedColumns? tables) = some column) :
    f.tableColumn? (answerIn provider state tables) = some column := by
  obtain ⟨binding, hbinding, hcolumn⟩ := Option.bind_eq_some_iff.mp h
  obtain ⟨columns, hcolumns, hcolumn⟩ := Option.bind_eq_some_iff.mp hcolumn
  have hanswer : answerIn provider state tables binding.schema binding.table = some columns := by
    rw [answerIn, Option.join_eq_some_iff.mp hcolumns]
  rw [ColumnFacts.tableColumn?, hbinding, Option.bind_eq_bind, Option.bind_some, hanswer]
  exact hcolumn

end Enrichment

open Enrichment

/-- The text of a column's type gives the length of the column.  So after every enrichment that
succeeds, a result column that is cast to this text and one that is bound to this column have the
same length, at whatever depth they are and whatever types they had. -/
theorem TableColumn.lengths_agree
    {c : TableColumn} (hname : '(' ∉ c.typeName.toList) (hsized : c.IsSized) :
    typeLength? c.sqlTypeName = c.charLength ∧
      ∀ {σ ε : Type} {provider : Lookup (StateT σ (Except ε))} {tables later : TableCache}
        {state next : σ} {a enriched : Analysis} {notes : EnrichmentNotes},
        ((a.enrich (enricher provider)).run tables).run state =
          .ok (((enriched, notes), later), next) →
        ∀ f ∈ enriched.content.walkColumns,
          f.targetOfCast? = some c.sqlTypeName ∨
              f.tableColumn? (rememberedColumns? later) = some c →
            f.maxLength = c.charLength := by
  have hlength := typeLength?_sqlTypeName hname hsized
  refine ⟨hlength, ?_⟩
  intro σ ε provider tables later state next a enriched notes hrun f hf htyped
  obtain ⟨houtcome, -⟩ := run_enrich_eq hrun
  have henriched : enriched = a.resolved (answerIn provider state later) := by
    rw [← fst_enrichWith, ← houtcome]
  rw [henriched] at hf
  rcases htyped with hcast | htable
  · exact (Analysis.maxLength_of_cast hf hcast).trans hlength
  · exact Analysis.maxLength_of_table hf (tableColumn?_answerIn htable)

/-- A text of fifty characters; the odd byte holds none. -/
def TableColumn.sample : TableColumn where
  name := "DisplayName"
  typeName := "NVarChar"
  maxLength := some 101
  precision := none
  scale := none
  isNullable := true

/-- Every table has the sample column and no other. -/
def Enrichment.textProvider : Lookup (StateT Unit (Except Unit)) :=
  fun _ _ => pure (some [TableColumn.sample])

/-- A cast to a text of fifty characters, and a document with a column of a table inside. -/
def Analysis.sampleLengths : Analysis where
  descriptor := ⟨"dbo", "Report"⟩
  content := {
    resultSets := [{
      columns := [
        .leaf { name := "Short", kind := .cast, castTarget := some "nvarchar(50)" },
        .node { name := "Items", kind := .nestedJson } [.leaf {
          name := "Name"
          kind := .columnRef
          sourceSchema := some "dbo"
          sourceTable := some "Users"
          sourceColumn := some "displayname" }]] }] }

theorem TableColumn.lengths_agree_sample :
    '(' ∉ sample.typeName.toList ∧ sample.IsSized ∧ sample.charLength = some 50 ∧
      typeLength? sample.sqlTypeName = sample.charLength ∧
      ∃ enriched notes later next,
        ((Analysis.sampleLengths.enrich (enricher textProvider)).run []).run () =
          .ok (((enriched, notes), later), next) ∧
        ∃ f ∈ enriched.content.walkColumns, ∃ g ∈ enriched.content.walkColumns,
          f.targetOfCast? = some sample.sqlTypeName ∧
            g.tableColumn? (rememberedColumns? later) = some sample ∧
            f.maxLength = sample.charLength ∧ g.maxLength = sample.charLength := by
  have hname : '(' ∉ sample.typeName.toList := by decide
  have hsized : sample.IsSized := by
    rintro n ⟨⟩
    decide
  have hrun : ∃ enriched notes later next,
      ((Analysis.sampleLengths.enrich (enricher textProvider)).run []).run () =
        .ok (((enriched, notes), later), next) ∧
      ∃ f ∈ enriched.content.walkColumns, ∃ g ∈ enriched.content.walkColumns,
        f.targetOfCast? = some sample.sqlTypeName ∧
          g.tableColumn? (rememberedColumns? later) = some sample := by
    refine ⟨_, _, _, _, rfl, _, .head _, _, .tail _ (.tail _ (.head _)), ?_, ?_⟩
    · decide +kernel
    · decide +kernel
  obtain ⟨enriched, notes, later, next, hrun, f, hf, g, hg, hcast, htable⟩ := hrun
  obtain ⟨htext, hlengths⟩ := lengths_agree hname hsized
  exact ⟨hname, hsized, by decide +kernel, htext, enriched, notes, later, next, hrun, f, hf, g, hg,
    hcast, htable, hlengths hrun f hf (.inl hcast), hlengths hrun g hg (.inr htable)⟩

end SqlSnapshot
