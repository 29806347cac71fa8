import SqlSnapshot.Proofs.Definition.TableBindings
import SqlSnapshot.Proofs.Token.Comments

/-!
# Definitions with comments

A comment between two lexemes of a definition leaves its tokens alone
(`Token.Insertion.tokenize_commented`), and with them the parameters, the issues and all of the
content that is read from the tokens.  What is searched for in the text itself can change: the
assignments of aggregates, which mark columns, and the keywords of a definition that is not read
statement by statement (`Analysis.ofDefinition_commented`).
-/

namespace SqlSnapshot

/-! ## Marks of aggregates -/

namespace AggregateAlias

/-- The column, marked with the function that is found for it, if any. -/
def mark (f : ColumnFacts) : Option String → ColumnFacts
  | some function => { f with isAggregate := some true, aggregateFunction := some function }
  | none => f

theorem tagFacts_of_none {f : ColumnFacts} (h : f.isAggregate = none)
    (aliases : List (String × String)) :
    tagFacts aliases f = mark f (aliases.lookup (Text.lower f.name)) := by
  rw [tagFacts, h, Option.isSome_none, if_neg Bool.false_ne_true]
  cases aliases.lookup (Text.lower f.name) <;> rfl

theorem mark_inj {f : ColumnFacts} (h : f.isAggregate = none) {a b : Option String} :
    mark f a = mark f b ↔ a = b := by
  constructor
  · intro hmark
    have hmarked : (mark f a).isAggregate = (mark f b).isAggregate := by rw [hmark]
    have hfunction : (mark f a).aggregateFunction = (mark f b).aggregateFunction := by rw [hmark]
    rcases a with _ | function <;> rcases b with _ | function'
    · rfl
    · cases h.symm.trans hmarked
    · cases hmarked.trans h
    · exact hfunction
  · rintro rfl
    rfl

theorem tagFacts_eq_iff {as bs : List (String × String)} {f : ColumnFacts} :
    tagFacts as f = tagFacts bs f ↔
      (f.isAggregate = none → as.lookup (Text.lower f.name) = bs.lookup (Text.lower f.name)) := by
  cases hmarked : f.isAggregate with
  | some _ => simp [tagFacts, hmarked]
  | none =>
    rw [tagFacts_of_none hmarked, tagFacts_of_none hmarked, mark_inj hmarked,
      forall_prop_of_true rfl]

mutual

theorem tagColumn_eq_iff {as bs : List (String × String)} :
    ∀ c : Column, tagColumn as c = tagColumn bs c ↔
      ∀ f ∈ c.walk, tagFacts as f = tagFacts bs f
  | .node facts children => by
    rw [tagColumn, tagColumn, Column.node.injEq, tagColumns_eq_iff children, Column.walk,
      List.forall_mem_cons]

theorem tagColumns_eq_iff {as bs : List (String × String)} :
    ∀ cs : List Column, tagColumns as cs = tagColumns bs cs ↔
      ∀ f ∈ Column.walkAll cs, tagFacts as f = tagFacts bs f
  | [] => by simp [tagColumns, Column.walkAll]
  | c :: cs => by
    rw [tagColumns, tagColumns, List.cons.injEq, tagColumn_eq_iff c, tagColumns_eq_iff cs,
      Column.walkAll, List.forall_mem_append]

end

/-- For every column that is not marked yet, the search finds the same function in both texts, or
none in both. -/
def SameMarks (content : Content) (a b : String) : Prop :=
  ∀ f ∈ content.walkColumns, f.isAggregate = none →
    (scan a).lookup (Text.lower f.name) = (scan b).lookup (Text.lower f.name)

theorem tag_eq_iff {content : Content} {a b : String} :
    tag content a = tag content b ↔ SameMarks content a b := by
  have hsets : tag content a = tag content b ↔
      ∀ s ∈ content.resultSets,
        tagColumns (scan a) s.columns = tagColumns (scan b) s.columns := by
    simp only [tag, Content.mk.injEq, true_and, and_true, List.map_inj_left]
    simp
  rw [hsets]
  simp only [tagColumns_eq_iff, tagFacts_eq_iff, SameMarks, Content.walkColumns,
    List.mem_flatMap]
  constructor
  · rintro h f ⟨s, hs, hf⟩
    exact h s hs f hf
  · intro h s hs f hf
    exact h f ⟨s, hs, hf⟩

/-- A content without columns has nothing to mark. -/
theorem tag_of_columns_nil {content : Content} (h : ∀ s ∈ content.resultSets, s.columns = [])
    (text : String) : tag content text = content := by
  have hsets : content.resultSets.map (fun s =>
      { s with columns := tagColumns (scan text) s.columns }) = content.resultSets := by
    refine (List.map_congr_left fun s hs => ?_).trans (List.map_id _)
    rw [h s hs, tagColumns, ← h s hs]
    rfl
  rw [tag, hsets]

end AggregateAlias

/-! ## Erased comments -/

namespace KeywordScan

theorem eraseComments_block {text after : List Char}
    (h : Token.skipPast ['*', '/'] text = some after) :
    eraseComments ('/' :: '*' :: text) = ' ' :: eraseComments after := by
  rw [eraseComments]
  split <;> simp_all

theorem eraseComments_line (text : List Char) :
    eraseComments ('-' :: '-' :: text) = ' ' :: eraseComments (text.dropWhile (· != '\n')) := by
  rw [eraseComments]

theorem eraseComments_cons {c : Char} {cs : List Char}
    (hblock : ¬ (c = '/' ∧ cs.head? = some '*')) (hline : ¬ (c = '-' ∧ cs.head? = some '-')) :
    eraseComments (c :: cs) = c :: eraseComments cs := by
  rw [eraseComments]
  · rintro rest rfl rfl
    simp at hblock
  · rintro rest rfl rfl
    simp at hline

/-- Where comments are erased from a text that goes on with `next`, the end of `cs` lies outside
all of them. -/
def endsOutside (next : Char) (cs : List Char) : Bool :=
  match cs with
  | [] => true
  | '/' :: '*' :: text =>
    match h : Token.skipPast ['*', '/'] text with
    | some after =>
      have := Token.length_skipPast h
      endsOutside next after
    | none => false
  | '-' :: '-' :: text =>
    match h : text.dropWhile (· != '\n') with
    | _ :: after =>
      have : after.length < text.length := by
        have := Token.length_dropWhile_le (· != '\n') text
        rwa [h] at this
      endsOutside next after
    | [] => false
  | ['-'] => next != '-'
  | _ :: rest => endsOutside next rest
termination_by cs.length

theorem eraseComments_append {next : Char} (hnext : next ≠ '*') {cs : List Char}
    (h : endsOutside next cs = true) (rest : List Char) :
    eraseComments (cs ++ next :: rest) = eraseComments cs ++ eraseComments (next :: rest) := by
  fun_induction endsOutside next cs with
  | case1 => simp [eraseComments]
  | case2 text after hskip hlen ih =>
    rw [List.cons_append, List.cons_append, eraseComments_block hskip,
      eraseComments_block (Token.skipPast_append (by simp) hskip), ih h, List.cons_append]
  | case3 => cases h
  | case4 text c after hdrop hlen ih =>
    have hnewline : c = '\n' := by
      have hne : text.dropWhile (· != '\n') ≠ [] := by simp [hdrop]
      simpa [hdrop] using List.head_dropWhile_not (· != '\n') hne
    have hlong : (text ++ next :: rest).dropWhile (· != '\n') = c :: after ++ next :: rest := by
      rw [List.dropWhile_append, hdrop]
      rfl
    have hkeep : ∀ cs, eraseComments (c :: cs) = c :: eraseComments cs := fun cs =>
      eraseComments_cons (by simp [hnewline]) (by simp [hnewline])
    rw [List.cons_append, List.cons_append, eraseComments_line, eraseComments_line, hdrop, hlong,
      List.cons_append, hkeep, hkeep, ih h]
    rfl
  | case5 => cases h
  | case6 =>
    have hminus : next ≠ '-' := by simpa using h
    have hlast : eraseComments ['-'] = ['-'] := by
      rw [eraseComments_cons (by simp) (by simp), eraseComments]
    rw [hlast, List.singleton_append, List.singleton_append,
      eraseComments_cons (by simp) (by simp [hminus])]
  | case7 c cs hblock hline hlast ih =>
    have hshort : ¬ (c = '/' ∧ cs.head? = some '*') ∧ ¬ (c = '-' ∧ cs.head? = some '-') := by
      constructor
      · rintro ⟨rfl, hhead⟩
        obtain ⟨ds, rfl⟩ := List.head?_eq_some_iff.1 hhead
        exact hblock ds rfl rfl
      · rintro ⟨rfl, hhead⟩
        obtain ⟨ds, rfl⟩ := List.head?_eq_some_iff.1 hhead
        exact hline ds rfl rfl
    have hlong : ¬ (c = '/' ∧ (cs ++ next :: rest).head? = some '*') ∧
        ¬ (c = '-' ∧ (cs ++ next :: rest).head? = some '-') := by
      rcases cs with _ | ⟨d, ds⟩
      · have hminus : c ≠ '-' := fun hc => hlast hc rfl
        simp [hnext, hminus]
      · exact hshort
    rw [List.cons_append, eraseComments_cons hlong.1 hlong.2,
      eraseComments_cons hshort.1 hshort.2, ih h, List.cons_append]

/-- Outside comments before a comment is outside before a blank. -/
theorem endsOutside_blank {next : Char} {cs : List Char} (h : endsOutside next cs = true) :
    endsOutside ' ' cs = true := by
  fun_induction endsOutside next cs with
  | case1 => rw [endsOutside]
  | case2 text after hskip hlen ih =>
    rw [endsOutside]
    split
    · rename_i other hother
      obtain rfl : after = other := Option.some.inj (hskip.symm.trans hother)
      exact ih h
    · simp_all
  | case3 => cases h
  | case4 text c after hdrop hlen ih =>
    rw [endsOutside]
    split
    · rename_i d other hother
      obtain ⟨-, rfl⟩ : c = d ∧ after = other := List.cons.inj (hdrop.symm.trans hother)
      exact ih h
    · simp_all
  | case5 => cases h
  | case6 => rw [endsOutside]; rfl
  | case7 c cs hblock hline hlast ih =>
    rw [endsOutside, ih h]
    · exact hblock
    · exact hline
    · exact hlast

/-- The keyword scan depends on a definition only through the text that its comments are erased
from. -/
theorem scan_congr {a b : String} (h : eraseComments a.toList = eraseComments b.toList)
    (e : ParseError) : scan a e = scan b e := by
  simp only [scan, h]

end KeywordScan

/-! ## Comments between lexemes -/

namespace Token.Insertion

/-- The blank that a comment counts as, and the newline that ends a line comment. -/
def blank (i : Insertion) : List Char :=
  if i.comment.head? = some '-' then [' ', '\n'] else [' ']

/-- The text with a blank where the comment is put. -/
def blanked (i : Insertion) : String :=
  String.ofList (i.before.flatten ++ (i.blank ++ i.after.flatten))

/-- The comment is erased as a comment: its place lies outside the comments that are erased before
it, and it ends at the first mark that closes a comment. -/
def IsErased (i : Insertion) : Prop :=
  KeywordScan.endsOutside (i.comment.head?.getD ' ') i.before.flatten = true ∧
    (i.comment.head? = some '/' → skipPast ['*', '/'] (i.comment.drop 2) = some [])

theorem IsErased.eraseComments_eq {i : Insertion} (h : i.IsErased) :
    KeywordScan.eraseComments i.commented.toList = KeywordScan.eraseComments i.blanked.toList := by
  obtain ⟨houtside, hclosed⟩ := h
  have hblank := KeywordScan.endsOutside_blank houtside
  obtain ⟨before, comment, after, hcut, hcomment, habs, hperiod⟩ := i
  have hspace : ∀ cs, KeywordScan.eraseComments (' ' :: cs) = ' ' :: KeywordScan.eraseComments cs :=
    fun cs => KeywordScan.eraseComments_cons (by simp) (by simp)
  simp only [commented, blanked, blank, String.toList_ofList] at *
  cases hcomment with
  | line text hline =>
    change KeywordScan.endsOutside '-' before.flatten = true at houtside
    calc KeywordScan.eraseComments
          (before.flatten ++ ('-' :: '-' :: (text ++ ['\n']) ++ after.flatten))
        = KeywordScan.eraseComments before.flatten ++
            KeywordScan.eraseComments ('-' :: '-' :: (text ++ '\n' :: after.flatten)) := by
          rw [← KeywordScan.eraseComments_append (by decide) houtside, List.cons_append,
            List.cons_append, List.append_assoc, List.singleton_append]
      _ = KeywordScan.eraseComments before.flatten ++
            KeywordScan.eraseComments (' ' :: '\n' :: after.flatten) := by
          rw [KeywordScan.eraseComments_line, dropWhile_line hline, hspace]
      _ = KeywordScan.eraseComments (before.flatten ++ ([' ', '\n'] ++ after.flatten)) :=
          (KeywordScan.eraseComments_append (by decide) hblank _).symm
  | block text hblock =>
    change KeywordScan.endsOutside '/' before.flatten = true at houtside
    have hskip : skipPast ['*', '/'] (text ++ after.flatten) = some after.flatten :=
      skipPast_append (by simp) (hclosed rfl)
    calc KeywordScan.eraseComments (before.flatten ++ ('/' :: '*' :: text ++ after.flatten))
        = KeywordScan.eraseComments before.flatten ++
            KeywordScan.eraseComments ('/' :: '*' :: (text ++ after.flatten)) :=
          KeywordScan.eraseComments_append (by decide) houtside _
      _ = KeywordScan.eraseComments before.flatten ++
            KeywordScan.eraseComments (' ' :: after.flatten) := by
          rw [KeywordScan.eraseComments_block hskip, hspace]
      _ = KeywordScan.eraseComments (before.flatten ++ ([' '] ++ after.flatten)) :=
          (KeywordScan.eraseComments_append (by decide) hblank _).symm

end Token.Insertion

namespace Analysis

theorem readStructure_congr {a b : String} (h : Token.tokenize a = Token.tokenize b) :
    readStructure a = readStructure b := by
  rw [readStructure, readStructure, h]

theorem readStructure_of_tokenize {definition : String} {e : ParseError}
    (h : Token.tokenize definition = .error e) : readStructure definition = .error e := by
  rw [readStructure, h]
  rfl

theorem readStructure_of_header {definition : String} {tokens : List Token} {e : ParseError}
    (htokens : Token.tokenize definition = .ok tokens)
    (hbalanced : Token.isBalanced tokens = true) (hheader : Header.parse tokens = .error e) :
    readStructure definition = .error e := by
  rw [readStructure, htokens, ok_bind, hbalanced, Bool.not_true, if_neg Bool.false_ne_true]
  dsimp only
  rw [hheader]
  rfl

/-- Apart from the kinds of statements, the content is what is read of the body. -/
theorem exists_readStructure_of_body {definition : String} {tokens body : List Token}
    {name : List String} {parameters : List Parameter} {found : Findings}
    (htokens : Token.tokenize definition = .ok tokens)
    (hbalanced : Token.isBalanced tokens = true)
    (hheader : Header.parse tokens = .ok ⟨name, parameters, body⟩)
    (hbody : Body.read [] body = .ok found) :
    ∃ statements, readStructure definition =
      .ok ({ statements, resultSets := found.resultSets,
             executed := Descriptor.distinct found.executed }, parameters, found.issues) := by
  rw [readStructure, htokens, ok_bind, hbalanced, Bool.not_true, if_neg Bool.false_ne_true]
  dsimp only
  rw [hheader, ok_bind]
  dsimp only
  rw [hbody]
  exact ⟨_, rfl⟩

theorem ofDefinition_of_ok {definition : String} {content : Content}
    {parameters : List Parameter} {issues : List Issue}
    (h : readStructure definition = .ok (content, parameters, issues)) (d : Descriptor) :
    ofDefinition d definition =
      { descriptor := d
        content := AggregateAlias.tag content definition
        parameters
        issues := issues.map (·.withDefaultProcedure d.display) } := by
  rw [ofDefinition, h]

/-- The content of a keyword scan has no columns, so that no search for assignments changes it. -/
theorem ofDefinition_of_error {definition : String} {e : ParseError}
    (h : readStructure definition = .error e) (d : Descriptor) :
    ofDefinition d definition =
      { descriptor := d
        content := KeywordScan.scan definition e
        issues := [(Issue.parseError e.message).withDefaultProcedure d.display] } := by
  have hcolumns : ∀ s ∈ (KeywordScan.scan definition e).resultSets, s.columns = [] := by
    intro s hs
    simp only [KeywordScan.scan, KeywordScan.resultSets] at hs
    split at hs
    · rw [List.mem_singleton.1 hs]
    · cases hs
  rw [ofDefinition, h]
  dsimp only
  rw [AggregateAlias.tag_of_columns_nil hcolumns]
  rfl

/-- A comment between two lexemes of a definition changes neither its parameters nor its issues.
Of a definition that is read statement by statement it changes no more of the content than the
marks of aggregates, and these exactly if the search for assignments finds another function for
some column.  A definition that is not is searched for keywords as before, and the comment counts
as a blank. -/
theorem ofDefinition_commented (d : Descriptor) (i : Token.Insertion) :
    (ofDefinition d i.commented).parameters = (ofDefinition d i.source).parameters ∧
    (ofDefinition d i.commented).issues = (ofDefinition d i.source).issues ∧
    (∀ content parameters issues, readStructure i.source = .ok (content, parameters, issues) →
      (ofDefinition d i.source).content = AggregateAlias.tag content i.source ∧
      (ofDefinition d i.commented).content = AggregateAlias.tag content i.commented ∧
      ((ofDefinition d i.commented).content = (ofDefinition d i.source).content ↔
        AggregateAlias.SameMarks content i.commented i.source)) ∧
    ∀ e, readStructure i.source = .error e →
      (ofDefinition d i.source).content = KeywordScan.scan i.source e ∧
      (ofDefinition d i.commented).content = KeywordScan.scan i.commented e ∧
      (i.IsErased → (ofDefinition d i.commented).content = KeywordScan.scan i.blanked e) := by
  have hread : readStructure i.commented = readStructure i.source :=
    readStructure_congr i.tokenize_commented
  rcases hsource : readStructure i.source with e | ⟨content, parameters, issues⟩
  · have hcommented := hread.trans hsource
    rw [ofDefinition_of_error hsource, ofDefinition_of_error hcommented]
    refine ⟨rfl, rfl, fun _ _ _ h => (by cases h), fun e' he => ?_⟩
    obtain rfl : e = e' := Except.error.inj he
    exact ⟨rfl, rfl, fun herased => KeywordScan.scan_congr herased.eraseComments_eq e⟩
  · have hcommented := hread.trans hsource
    rw [ofDefinition_of_ok hsource, ofDefinition_of_ok hcommented]
    refine ⟨rfl, rfl, fun content' _ _ h => ?_, fun _ h => (by cases h)⟩
    obtain rfl : content = content' := congrArg (·.1) (Except.ok.inj h)
    exact ⟨rfl, rfl, AggregateAlias.tag_eq_iff⟩

/-! ## Comments in a definition of one column -/

/-- `CREATE PROCEDURE dbo.P AS SELECT o.Id FROM dbo.Orders o`, with a comment behind `o.Id` -/
def sampleInsertion (comment : List Char) (h : Token.IsComment comment) : Token.Insertion where
  before := ["CREATE", " ", "PROCEDURE", " ", "dbo", ".", "P", " ", "AS", " ", "SELECT", " ", "o",
    ".", "Id"].map String.toList
  comment := comment
  after := [" ", "FROM", " ", "dbo", ".", "Orders", " ", "o"].map String.toList
  isCut := by decide +kernel
  isComment := h
  not_absorbs := by
    intro piece hpiece
    obtain rfl : "Id".toList = piece := Option.some.inj hpiece
    by_cases hminus : comment.head? = some '-'
    · rw [Token.absorbs, if_pos hminus]
      decide
    · rw [Token.absorbs, if_neg hminus]
      decide
  not_period := by decide

def sampleTokens : List Token :=
  [.word "CREATE" false, .word "PROCEDURE" false, .word "dbo" false, .period, .word "P" false,
   .word "AS" false] ++ Body.sampleSelect
    [.word "dbo" false, .period, .word "Orders" false, .word "o" false]

def sampleFacts : ColumnFacts where
  name := "Id"
  kind := .columnRef
  sourceSchema := some "dbo"
  sourceTable := some "Orders"
  sourceColumn := some "Id"
  sourceAlias := some "o"

theorem exists_readStructure_sampleInsertion
    (comment : List Char) (h : Token.IsComment comment) :
    ∃ content, readStructure (sampleInsertion comment h).source = .ok (content, [], []) ∧
      content.walkColumns = [sampleFacts] := by
  have hsource : (sampleInsertion comment h).source =
      "CREATE PROCEDURE dbo.P AS SELECT o.Id FROM dbo.Orders o" := rfl
  have htokens : Token.tokenize (sampleInsertion comment h).source = .ok sampleTokens := by
    rw [hsource]
    decide +kernel
  obtain ⟨set, hread, hcolumns⟩ := Body.exists_read_sampleSelect []
    [.word "dbo" false, .period, .word "Orders" false, .word "o" false]
    (by decide +kernel) (by decide +kernel)
  have hheader : Header.parse sampleTokens = .ok ⟨["dbo", "P"], [], Body.sampleSelect _⟩ := rfl
  obtain ⟨statements, hstructure⟩ :=
    exists_readStructure_of_body htokens (by decide +kernel) hheader hread
  refine ⟨_, hstructure, ?_⟩
  rw [Content.walkColumns, List.flatMap_singleton, hcolumns]
  decide +kernel

theorem isComment_nested : Token.IsComment "/* the /* first */ column */".toList :=
  .block _ (by decide +kernel)

theorem isComment_assignment : Token.IsComment "/* Id = SUM(x) */".toList :=
  .block _ (by decide +kernel)

/-- `SELECT 1`, which is no definition of a procedure, with a comment behind the keyword -/
def keywordInsertion : Token.Insertion where
  before := ["SELECT".toList]
  comment := "-- UPDATE\n".toList
  after := [" ".toList, "1".toList]
  isCut := by decide +kernel
  isComment := .line " UPDATE".toList (by decide)
  not_absorbs := by
    intro piece hpiece
    obtain rfl : "SELECT".toList = piece := Option.some.inj hpiece
    decide
  not_period := by decide

theorem isErased_keywordInsertion : keywordInsertion.IsErased :=
  ⟨by decide +kernel, by decide⟩

/-- A comment inside which there is another leaves the content alone, and what a line comment says
is no keyword where a definition is searched for keywords. -/
theorem ofDefinition_commented_sample :
    (let i := sampleInsertion _ isComment_nested
     i.commented =
       "CREATE PROCEDURE dbo.P AS SELECT o.Id/* the /* first */ column */ FROM dbo.Orders o" ∧
     (ofDefinition ⟨"dbo", "P"⟩ i.commented).content =
       (ofDefinition ⟨"dbo", "P"⟩ i.source).content) ∧
    (let i := keywordInsertion
     i.commented = "SELECT-- UPDATE\n 1" ∧
     ∃ e, readStructure i.source = .error e ∧
       (ofDefinition ⟨"dbo", "P"⟩ i.commented).content = KeywordScan.scan "SELECT \n 1" e) := by
  constructor
  · intro i
    refine ⟨by decide +kernel, ?_⟩
    obtain ⟨content, hread, -⟩ := exists_readStructure_sampleInsertion _ isComment_nested
    have hcommented : AggregateAlias.scan i.commented = [] := by decide +kernel
    have hsource : AggregateAlias.scan i.source = [] := by decide +kernel
    obtain ⟨-, -, hok, -⟩ := ofDefinition_commented ⟨"dbo", "P"⟩ i
    refine (hok content [] [] hread).2.2.2 fun f _ _ => ?_
    rw [hcommented, hsource]
  · intro i
    have htokens : Token.tokenize i.source = .ok [.word "SELECT" false, .num "1"] := by
      decide +kernel
    obtain ⟨e, hread⟩ : ∃ e, readStructure i.source = .error e :=
      ⟨_, readStructure_of_header htokens (by decide +kernel) rfl⟩
    have hblanked : i.blanked = "SELECT \n 1" := by decide +kernel
    refine ⟨by decide +kernel, e, hread, ?_⟩
    obtain ⟨-, -, -, herror⟩ := ofDefinition_commented ⟨"dbo", "P"⟩ i
    rw [← hblanked]
    exact (herror e hread).2.2 isErased_keywordInsertion

/-- The tokens of `CREATE PROCEDURE dbo.name AS` -/
def headerTokens (name : String) : List Token :=
  [.word "CREATE" false, .word "PROCEDURE" false, .word "dbo" false, .period, .word name false,
   .word "AS" false]

/-- An assignment of an aggregate in a comment marks the column of that name.  A sign can take the
first character of a comment behind it, and a period before an underscore is read only directly
behind a name. -/
theorem ofDefinition_commented_ne :
    (let i := sampleInsertion _ isComment_assignment
     i.source = "CREATE PROCEDURE dbo.P AS SELECT o.Id FROM dbo.Orders o" ∧
     i.commented =
       "CREATE PROCEDURE dbo.P AS SELECT o.Id/* Id = SUM(x) */ FROM dbo.Orders o" ∧
     (∃ tokens, Token.tokenize i.source = .ok tokens) ∧
     (ofDefinition ⟨"dbo", "P"⟩ i.commented).content ≠
       (ofDefinition ⟨"dbo", "P"⟩ i.source).content) ∧
    ((∃ tokens, Token.tokenize "CREATE PROCEDURE -dbo.P AS" = .ok tokens) ∧
     (ofDefinition ⟨"dbo", "P"⟩ "CREATE PROCEDURE --- name\ndbo.P AS").issues ≠
       (ofDefinition ⟨"dbo", "P"⟩ "CREATE PROCEDURE -dbo.P AS").issues) ∧
    ((∃ tokens, Token.tokenize "CREATE PROCEDURE dbo._P AS" = .ok tokens) ∧
     (ofDefinition ⟨"dbo", "_P"⟩ "CREATE PROCEDURE dbo/* schema */._P AS").issues ≠
       (ofDefinition ⟨"dbo", "_P"⟩ "CREATE PROCEDURE dbo._P AS").issues) := by
  refine ⟨?_, ?_, ?_⟩
  · intro i
    refine ⟨by decide +kernel, by decide +kernel, i.exists_tokenize, ?_⟩
    obtain ⟨content, hread, hcolumns⟩ :=
      exists_readStructure_sampleInsertion _ isComment_assignment
    have hcommented : readStructure i.commented = .ok (content, [], []) :=
      (readStructure_congr i.tokenize_commented).trans hread
    rw [ofDefinition_of_ok hcommented, ofDefinition_of_ok hread]
    intro hsame
    have hmarks := AggregateAlias.tag_eq_iff.1 hsame sampleFacts
      (hcolumns ▸ List.mem_singleton_self _) rfl
    exact absurd hmarks (by decide +kernel)
  · have hsign : Token.tokenize "CREATE PROCEDURE -dbo.P AS" =
        .ok (.word "CREATE" false :: .word "PROCEDURE" false :: .other "-" ::
          (headerTokens "P").drop 2) := by decide +kernel
    have herror : readStructure _ = .error .missingName :=
      readStructure_of_header hsign (by decide +kernel) rfl
    have htokens : Token.tokenize "CREATE PROCEDURE --- name\ndbo.P AS" =
        .ok (headerTokens "P") := by decide +kernel
    obtain ⟨_, hread⟩ :=
      exists_readStructure_of_body htokens (by decide +kernel) rfl (Body.read_nil [])
    refine ⟨⟨_, hsign⟩, ?_⟩
    rw [ofDefinition_of_ok hread, ofDefinition_of_error herror]
    simp
  · have htokens : Token.tokenize "CREATE PROCEDURE dbo._P AS" = .ok (headerTokens "_P") := by
      decide +kernel
    obtain ⟨_, hread⟩ :=
      exists_readStructure_of_body htokens (by decide +kernel) rfl (Body.read_nil [])
    have hfault : Token.tokenize "CREATE PROCEDURE dbo/* schema */._P AS" =
        .error (.lexical .unexpectedUnderscore 1 33) := by decide +kernel
    have herror := readStructure_of_tokenize hfault
    refine ⟨⟨_, htokens⟩, ?_⟩
    rw [ofDefinition_of_ok hread, ofDefinition_of_error herror]
    simp

end Analysis

end SqlSnapshot
