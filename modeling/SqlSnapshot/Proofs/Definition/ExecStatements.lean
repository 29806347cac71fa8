import SqlSnapshot.Definition.KeywordScan
import SqlSnapshot.Proofs.Definition.NestedSelect
import SqlSnapshot.Proofs.Definition.ResultSets
import SqlSnapshot.Proofs.Definition.StatementEnds
import SqlSnapshot.Proofs.Definition.Statements
import SqlSnapshot.Proofs.Text.LatinCase
import SqlSnapshot.Proofs.Token.NameParts

/-!
# Statements that execute a procedure

The grammar of `EXEC` and `EXECUTE`, and what the reader of bodies records of such a statement: the
last two parts of the name, unless they name a procedure of the server or one that takes its
statement as a text.  What stands behind the name adds nothing, if it holds no further `EXEC`.
-/

namespace SqlSnapshot

open Text Token NamePart

/-! ## Findings of the statements behind -/

namespace Body

variable {state next : State} {own found : Findings} {ctes : List String} {t : Token}
  {ts : List Token}

def execWords : List String :=
  ["EXEC", "EXECUTE"]

theorem Step.isSuffix (h : Step state own next) : next.2 <:+ state.2 := by
  cases h with
  | group h => exact isSuffix_skipGroup? h
  | ctes ht h => exact (isSuffix_readCtes _).trans (List.suffix_cons _ _)
  | other ht hctes h => exact List.suffix_cons _ _
  | statement ht hctes h => exact (isSuffix_readStatement? h).trans (List.suffix_cons _ _)

theorem Reaches.isSuffix (h : Reaches state next) : next.2 <:+ state.2 := by
  induction h with
  | refl => exact List.suffix_refl _
  | tail _ hstep ih =>
    obtain ⟨own, hstep⟩ := hstep
    exact hstep.isSuffix.trans ih

theorem Step.executed_eq_nil
    (h : Step state own next) (hwords : ∀ t ∈ state.2, t.isAnyKw execWords = false) :
    own.executed = [] := by
  cases h with
  | group h => rfl
  | ctes ht h => rfl
  | other ht hctes h => rfl
  | @statement ctes t ts after own ht hctes h =>
    obtain ⟨-, hselect, -⟩ | ⟨hnone, -⟩ | ⟨hexec, -, -⟩ := readStatement?_cases h
    · exact (readSelect_eq_ok hselect.symm).1
    · cases hnone
      rfl
    · exact absurd (hexec.symm.trans (hwords t List.mem_cons_self)) (by decide)

/-- Without a further `EXEC` nothing is executed. -/
theorem executed_eq_nil
    (h : read ctes ts = .ok found) (hwords : ∀ t ∈ ts, t.isAnyKw execWords = false) :
    found.executed = [] := by
  obtain ⟨steps, rfl, hsteps⟩ := read_eq_ok h
  have hown : ∀ own ∈ steps, own.executed = [] := by
    intro own hown
    obtain ⟨state, next, hreaches, hstep⟩ := hsteps own hown
    exact hstep.executed_eq_nil fun t ht => hwords t (hreaches.isSuffix.subset ht)
  clear h hsteps
  induction steps with
  | nil => rfl
  | cons own steps ih =>
    obtain ⟨hfirst, hothers⟩ := List.forall_mem_cons.mp hown
    rw [List.foldr_cons, Findings.append, hfirst, List.nil_append, ih hothers]

/-- Only a select can fail to be read. -/
theorem exists_read
    (ctes : List String) (h : ∀ t ∈ ts, t.isKw "SELECT" = false) :
    ∃ found, read ctes ts = .ok found := by
  induction ctes, ts using read.induct with
  | case1 ctes => exact ⟨{}, read_nil ctes⟩
  | case2 ctes ts after hgroup _ ih =>
    rw [read_group hgroup]
    exact ih fun t ht => h t ((isSuffix_skipGroup? hgroup).subset ht)
  | case3 ctes ts hgroup => exact ⟨{}, read_unclosed hgroup⟩
  | case4 ctes t ts ht hctes _ ih =>
    rw [read_ctes ht hctes]
    exact ih fun u hu => h u (List.mem_cons_of_mem t ((isSuffix_readCtes ts).subset hu))
  | case5 ctes t ts ht hctes hnone ih =>
    rw [read_other ht hctes hnone]
    exact ih fun u hu => h u (List.mem_cons_of_mem t hu)
  | case6 ctes t ts ht hctes after e hstatement =>
    obtain ⟨hselect, -, -⟩ | ⟨hnone, -⟩ | ⟨-, hexec, -⟩ := readStatement?_cases hstatement
    · exact absurd (hselect.symm.trans (h t List.mem_cons_self)) (by decide)
    · cases hnone
    · cases hexec
  | case7 ctes t ts ht hctes after own hstatement _ _ ih =>
    obtain ⟨others, hothers⟩ := ih fun u hu =>
      h u (List.mem_cons_of_mem t ((isSuffix_readStatement? hstatement).subset hu))
    rw [read_statement ht hctes hstatement, hothers]
    exact ⟨own.append others, rfl⟩

/-! ## One statement -/

/-- What is recorded of an executed procedure whose name has the given parts. -/
def recorded (parts : List String) : List Descriptor :=
  let target := targetOf parts
  if sameAscii target.name "sp_executesql" || isSystem (parts.length == 1) target then []
  else [target]

theorem skipStatus_of_not_isVariable
    (ht : t.isVariable = false) (ts : List Token) :
    skipStatus (t :: ts) = t :: ts := by
  unfold skipStatus
  split
  · rename_i u us heq
    obtain ⟨rfl, rfl⟩ := List.cons.inj heq
    rw [ht, if_neg Bool.false_ne_true]
  · rfl

theorem isVariable_token (p : NamePart) : p.token.isVariable = false := by
  cases p with
  | plain name h =>
    cases name with
    | nil => exact h.elim
    | cons c cs =>
      have hc : c ≠ '@' := by
        rintro rfl
        exact absurd h.1 (by decide)
      simp [NamePart.token, NamePart.text, NamePart.isQuoted, isVariable, hc]
  | bracketed name h => rfl

theorem executed_readExec
    (p : NamePart) (ps : List NamePart) (h : ts.head? ≠ some .period) :
    (readExec (p.token :: dottedTokens ps ++ ts)).executed =
      recorded (p.text :: ps.map NamePart.text) := by
  have hvariable := isVariable_token p
  rw [NamePart.token] at hvariable
  rw [readExec, List.cons_append, skipStatus_of_not_isVariable (isVariable_token p), NamePart.token]
  dsimp only
  rw [hvariable, if_neg Bool.false_ne_true, NamePart.readNameTail_dottedTokens ps h, recorded]
  cases sameAscii (targetOf (p.text :: ps.map NamePart.text)).name "sp_executesql" with
  | true => rfl
  | false =>
    cases isSystem ((p.text :: ps.map NamePart.text).length == 1)
      (targetOf (p.text :: ps.map NamePart.text)) <;> rfl

end Body

/-! ## Grammar -/

/-- A variable that takes the status of a procedure, with the blanks around the equals sign. -/
structure StatusVariable where
  name : List Char
  before : List Char
  after : List Char
  name_ne_nil : name ≠ []
  isName : ∀ c ∈ name, isNamePart c = true ∧ isWordChar c = true
  blank_before : ∀ c ∈ before, isBlank c = true
  blank_after : ∀ c ∈ after, isBlank c = true

namespace StatusVariable

def written (v : StatusVariable) : List Char :=
  '@' :: (v.name ++ (v.before ++ '=' :: v.after))

def tokens (v : StatusVariable) : List Token :=
  [.word (String.ofList ('@' :: v.name)) false, .equals]

theorem isVariable_at (name : List Char) :
    (Token.word (String.ofList ('@' :: name)) false).isVariable = true := by
  simp [isVariable]

end StatusVariable

/-- `EXEC` or `EXECUTE` of a procedure, with anything behind its name that does not go on with the
name and holds no further `EXEC`, neither as a token nor as a word of the text without comments. -/
structure ExecStatement where
  keyword : List Char
  gap : List Char
  status : Option StatusVariable
  first : NamePart
  more : List NamePart
  arguments : List Char
  argumentTokens : List Token
  isKeyword : sameAscii (String.ofList keyword) "EXEC" = true ∨
    sameAscii (String.ofList keyword) "EXECUTE" = true
  gap_ne_nil : gap ≠ []
  blank_gap : ∀ c ∈ gap, isBlank c = true
  not_keyword : ∀ p ∈ first :: more, p.token.isAnyKw ("CASE" :: Body.statementKeywords) = false
  isEnded : (last first more).IsEndedBy arguments
  isRead : tokensFrom true arguments = .ok argumentTokens
  not_period : argumentTokens.head? ≠ some .period
  not_exec_token : ∀ t ∈ argumentTokens, t.isAnyKw Body.execWords = false
  not_exec_word : ∀ word ∈ Body.execWords,
    hasKeyword word (dotted (more.drop 1) ++ KeywordScan.eraseComments arguments) = false

namespace ExecStatement

variable (s : ExecStatement)

def parts : List NamePart :=
  s.first :: s.more

/-- The text between the keyword and the name. -/
def lead : List Char :=
  s.gap ++ (s.status.map StatusVariable.written).getD []

def text : String :=
  String.ofList (s.keyword ++ (s.lead ++ (s.first.written ++ (dotted s.more ++ s.arguments))))

def nameTokens : List Token :=
  s.first.token :: dottedTokens s.more

def tokens : List Token :=
  .word (String.ofList s.keyword) false ::
    ((s.status.map StatusVariable.tokens).getD [] ++ (s.nameTokens ++ s.argumentTokens))

end ExecStatement

/-! ## The tokens of a statement -/

theorem ascii_of_toLower
    {c d : Char} (h : c.toLower = d) (hd : d.toNat < 128) :
    c.toNat < 128 := by
  by_cases hcapital : isLatinCapital c
  · exact Nat.lt_of_le_of_lt hcapital.2 (by decide)
  · rw [toLower_of_not_capital hcapital] at h
    exact h ▸ hd

/-- However its letters are cased, a word of Latin letters is an identifier. -/
theorem isIdentifier_of_map_toLower
    {cs word : List Char} (h : cs.map Char.toLower = word) (hne : word ≠ [])
    (hword : word.all Char.isLower = true) :
    IsIdentifier cs := by
  have hletters : ∀ c ∈ cs, startsIdentifier c = true := by
    intro c hc
    have hlower : c.toLower.isLower = true :=
      List.all_eq_true.mp hword _ (h ▸ List.mem_map_of_mem hc)
    have hidentifier : isIdentifierChar c.toLower = true := by
      have halpha : c.toLower.isAlpha = true := Bool.or_eq_true_iff.mpr (.inr hlower)
      simp [isIdentifierChar, Char.isAlphanum, halpha]
    have hascii : c.toNat < 128 := ascii_of_toLower rfl (ascii_of_isIdentifierChar hidentifier)
    have hchecked := forall_ascii (p := fun c => !c.toLower.isLower || startsIdentifier c)
      (by decide +kernel) hascii
    simpa [hlower] using hchecked
  cases cs with
  | nil => exact absurd h.symm hne
  | cons c cs =>
    exact ⟨hletters c List.mem_cons_self, fun d hd =>
      isIdentifierChar_of_starts (hletters d (List.mem_cons_of_mem c hd))⟩

theorem not_period_written (p : NamePart) (rest : List Char) :
    ¬ ['.', '_'] <+: p.written ++ rest := by
  obtain ⟨c, cs, hp, hc⟩ := p.exists_cons_written
  rw [hp, List.cons_append, List.cons_prefix_cons]
  rintro ⟨rfl, -⟩
  exact absurd hc (by decide)

theorem head?_blanks_written
    {gap : List Char} (hgap : ∀ c ∈ gap, isBlank c = true) (p : NamePart) (rest : List Char) :
    ∀ c ∈ (gap ++ (p.written ++ rest)).head?,
      isBlank c = true ∨ startsIdentifier c = true ∨ c = '[' := by
  intro c hc
  cases gap with
  | nil =>
    obtain ⟨d, ds, hp, hd⟩ := p.exists_cons_written
    rw [List.nil_append, hp] at hc
    exact .inr (Option.some.inj hc ▸ hd)
  | cons d gap => exact .inl (Option.some.inj hc ▸ hgap d List.mem_cons_self)

theorem tokensFrom_variable
    {name rest : List Char} (hne : name ≠ [])
    (hname : ∀ c ∈ name, isNamePart c = true ∧ isWordChar c = true) (hrest : EndsName rest)
    (afterName : Bool) :
    tokensFrom afterName ('@' :: (name ++ rest)) =
      (tokensFrom true rest).map (.word (String.ofList ('@' :: name)) false :: ·) := by
  cases name with
  | nil => exact absurd rfl hne
  | cons c cs =>
    obtain ⟨⟨hpart, hword⟩, hothers⟩ := List.forall_mem_cons.mp hname
    have hother : ∀ d, (isNamePart d && isWordChar d) = false → c ≠ d := by
      rintro d hd rfl
      rw [hpart, hword] at hd
      cases hd
    have hat : readAt (c :: cs ++ rest) = readName ['@', c] (cs ++ rest) := by
      have hplain : ¬ (c = ' ' ∨ c = '\x27' ∨ c = '\x22' ∨ c = '\x60') := by
        rintro (rfl | rfl | rfl | rfl) <;> exact hother _ (by decide +kernel) rfl
      rw [List.cons_append, readAt]
      · rw [if_neg hplain]
      · exact hother '>' (by decide +kernel)
      · exact hother '?' (by decide +kernel)
      · exact hother '@' (by decide +kernel)
    have hread : lexeme afterName '@' (c :: cs ++ rest) =
        .ok (.word (String.ofList ('@' :: c :: cs)) false, rest) := by
      have hdigit : isDigit '@' = false := by decide
      have hlexeme : lexeme afterName '@' (c :: cs ++ rest) = .ok (readAt (c :: cs ++ rest)) := by
        simp [lexeme, isSpaceChar, readUnquoted, hdigit]
      rw [hlexeme, hat, readName_append (fun d hd => (hothers d hd).1) hrest]
      rfl
    exact tokensFrom_cons hread rfl (by simp)

theorem tokensFrom_equals
    {rest : List Char} (hrest : ∀ c ∈ rest.head?, c ≠ '=' ∧ c ≠ '>') (afterName : Bool) :
    tokensFrom afterName ('=' :: rest) = (tokensFrom false rest).map (.equals :: ·) := by
  have hread : lexeme afterName '=' rest = .ok (.symbol .equals, rest) := by
    have hequals : rest.head? ≠ some '=' := fun h => (hrest '=' h).1 rfl
    have hgreater : rest.head? ≠ some '>' := fun h => (hrest '>' h).2 rfl
    have hdigit : isDigit '=' = false := by decide
    simp [lexeme, isSpaceChar, readUnquoted, readPlain, hdigit, hequals, hgreater]
  exact tokensFrom_cons hread rfl (by simp)

theorem StatusVariable.endsName_before (v : StatusVariable) (rest : List Char) :
    EndsName (v.before ++ '=' :: rest) := by
  cases hbefore : v.before with
  | nil =>
    rintro c ⟨⟩
    decide +kernel
  | cons c before =>
    exact endsName_of_blank (v.blank_before c (hbefore ▸ List.mem_cons_self)) _

theorem StatusVariable.tokensFrom_written
    (v : StatusVariable) (p : NamePart) (rest : List Char) :
    tokensFrom false (v.written ++ (p.written ++ rest)) =
      (tokensFrom false (p.written ++ rest)).map (v.tokens ++ ·) := by
  have hbehind : ∀ c ∈ (v.after ++ (p.written ++ rest)).head?, c ≠ '=' ∧ c ≠ '>' := by
    intro c hc
    have hkinds := head?_blanks_written v.blank_after p rest c hc
    constructor <;> rintro rfl <;> exact absurd hkinds (by decide)
  have hequals : ¬ ['.', '_'] <+: '=' :: (v.after ++ (p.written ++ rest)) := by
    rw [List.cons_prefix_cons]
    exact fun h => absurd h.1 (by decide)
  rw [written, List.cons_append, List.append_assoc, List.append_assoc, List.cons_append,
    tokensFrom_variable v.name_ne_nil v.isName (v.endsName_before _),
    tokensFrom_blanks v.blank_before hequals,
    tokensFrom_equals hbehind, tokensFrom_blanks v.blank_after (not_period_written p rest)]
  cases tokensFrom false (p.written ++ rest) <;> rfl

namespace ExecStatement

theorem map_toLower_keyword (s : ExecStatement) :
    s.keyword.map Char.toLower = "exec".toList ∨ s.keyword.map Char.toLower = "execute".toList := by
  rw [← String.toList_ofList (l := s.keyword)]
  exact s.isKeyword.imp beq_iff_eq.mp beq_iff_eq.mp

theorem isIdentifier_keyword (s : ExecStatement) : IsIdentifier s.keyword := by
  rcases s.map_toLower_keyword with h | h
  · exact isIdentifier_of_map_toLower h (by decide) (by decide)
  · exact isIdentifier_of_map_toLower h (by decide) (by decide)

theorem tokensFrom_lead (s : ExecStatement) (rest : List Char) :
    tokensFrom true (s.lead ++ (s.first.written ++ rest)) =
      (tokensFrom false (s.first.written ++ rest)).map
        ((s.status.map StatusVariable.tokens).getD [] ++ ·) := by
  cases hstatus : s.status with
  | none =>
    have hblanks := tokensFrom_blanks s.blank_gap (not_period_written s.first rest) true
    simp only [lead, hstatus, Option.map_none, Option.getD_none, List.append_nil, hblanks,
      List.nil_append]
    cases tokensFrom false (s.first.written ++ rest) <;> rfl
  | some v =>
    have hvariable : ¬ ['.', '_'] <+: v.written ++ (s.first.written ++ rest) := by
      rw [StatusVariable.written, List.cons_append, List.cons_prefix_cons]
      exact fun h => absurd h.1 (by decide)
    simp only [lead, hstatus, Option.map_some, Option.getD_some, List.append_assoc]
    rw [tokensFrom_blanks s.blank_gap hvariable, v.tokensFrom_written]

/-- The lexer reads the keyword, the variable, the parts of the name and what is behind them. -/
theorem tokenize_text (s : ExecStatement) : tokenize s.text = .ok s.tokens := by
  have hgap : EndsName (s.lead ++ (s.first.written ++ (dotted s.more ++ s.arguments))) := by
    obtain ⟨c, gap, hgap⟩ := List.exists_cons_of_ne_nil s.gap_ne_nil
    rw [lead, hgap]
    exact endsName_of_blank (s.blank_gap c (hgap ▸ List.mem_cons_self)) _
  apply tokenize_of_tokensFrom
  rw [tokensFrom_identifier s.isIdentifier_keyword hgap, s.tokensFrom_lead,
    tokensFrom_name s.isEnded, s.isRead]
  rfl

/-! ## What the body reader records -/

theorem isExec_keyword (s : ExecStatement) :
    (Token.word (String.ofList s.keyword) false).isAnyKw Body.execWords = true := by
  have hupper : ∀ {word}, sameAscii (String.ofList s.keyword) word = true →
      asciiUpper (String.ofList s.keyword) = asciiUpper word := by
    intro word h
    rw [← asciiUpper_asciiLower, sameAscii_iff.mp h, asciiUpper_asciiLower]
  rcases s.isKeyword with h | h <;>
    rw [isAnyKw, hupper h] <;> decide

theorem passes_name (s : ExecStatement) :
    Body.Passes false ((s.status.map StatusVariable.tokens).getD [] ++ s.nameTokens) := by
  have hpart : ∀ p ∈ s.first :: s.more, Body.Passes false [p.token] := fun p hp =>
    Body.passes_of_not_statement rfl (s.not_keyword p hp)
  have hperiod : Body.Passes false [.period] := Body.passes_of_not_statement rfl rfl
  have hmore : ∀ ps : List NamePart, (∀ p ∈ ps, Body.Passes false [p.token]) →
      Body.Passes false (dottedTokens ps) := by
    intro ps hps
    induction ps with
    | nil => exact Body.passes_nil
    | cons p ps ih =>
      obtain ⟨hp, hothers⟩ := List.forall_mem_cons.mp hps
      exact (hperiod.append hp).append (ih hothers)
  obtain ⟨hfirst, hothers⟩ := List.forall_mem_cons.mp hpart
  refine Body.Passes.append ?_ (hfirst.append (hmore s.more hothers))
  cases s.status with
  | none => exact Body.passes_nil
  | some v =>
    have hequals : Body.Passes false [.equals] := Body.passes_of_not_statement rfl rfl
    have hvariable : Body.Passes false [.word (String.ofList ('@' :: v.name)) false] :=
      Body.passes_of_not_statement rfl
        (isAnyKw_eq_false_of_isVariable (StatusVariable.isVariable_at v.name) (by decide))
    exact hvariable.append hequals

theorem skipStatus_lead (s : ExecStatement) (ts : List Token) :
    Body.skipStatus ((s.status.map StatusVariable.tokens).getD [] ++ (s.nameTokens ++ ts)) =
      s.nameTokens ++ ts := by
  cases s.status with
  | none => exact Body.skipStatus_of_not_isVariable (Body.isVariable_token s.first) _
  | some v =>
    show Body.skipStatus (_ :: .equals :: (s.nameTokens ++ ts)) = _
    rw [Body.skipStatus, if_pos (StatusVariable.isVariable_at v.name)]

theorem executed_readExec_lead
    (s : ExecStatement) {ts : List Token} (h : ts.head? ≠ some .period) :
    (Body.readExec ((s.status.map StatusVariable.tokens).getD [] ++
        (s.nameTokens ++ ts))).executed =
      Body.recorded (s.parts.map NamePart.text) := by
  have hname := Body.executed_readExec s.first s.more h
  rw [Body.readExec, List.cons_append,
    Body.skipStatus_of_not_isVariable (Body.isVariable_token s.first)] at hname
  rw [Body.readExec, s.skipStatus_lead]
  exact hname

/-- The statement is read up to its end, and then what is behind it. -/
theorem exists_read_tokens (s : ExecStatement) :
    ∃ taken rest, taken ++ rest = s.argumentTokens ∧
      Body.read [] s.tokens = Body.followedBy
        (.ok (Body.readExec ((s.status.map StatusVariable.tokens).getD [] ++
          (s.nameTokens ++ taken)))) (Body.read [] rest) := by
  have hexec := s.isExec_keyword
  have hother : ∀ keywords : List String, (∀ word ∈ Body.execWords, word ∉ keywords) →
      (Token.word (String.ofList s.keyword) false).isAnyKw keywords = false := fun _ hdisjoint =>
    isAnyKw_eq_false_of_disjoint hexec hdisjoint
  have hctes : ∀ ts, Body.startsCtes (.word (String.ofList s.keyword) false) ts = false :=
    Body.startsCtes_of_not_with (hother ["WITH"] (by decide))
  have hcut := s.passes_name (.word (String.ofList s.keyword) false) 0 s.argumentTokens (by simp)
  have hwhole := Body.append_cutStatement (Body.lastOf (.word (String.ofList s.keyword) false)
    ((s.status.map StatusVariable.tokens).getD [] ++ s.nameTokens)) 0 0 s.argumentTokens
  rw [List.append_assoc] at hcut
  generalize Body.cutStatement _ 0 0 s.argumentTokens = cut at hcut hwhole
  obtain ⟨taken, rest⟩ := cut
  refine ⟨taken, rest, hwhole, Body.read_statement (by simp) (by simp [hctes]) ?_⟩
  rw [Body.readStatement?, isKw, isKw, isKw, isKw, isKw, hother ["SELECT"] (by decide),
    hother ["INSERT"] (by decide), hother ["UPDATE"] (by decide), hother ["MERGE"] (by decide),
    hother ["DECLARE"] (by decide), hother ["DELETE", "SET"] (by decide), ← Body.execWords, hexec,
    hcut]
  simp [carry]

theorem executed_eq
    (s : ExecStatement) {found : Findings} (h : Body.read [] s.tokens = .ok found) :
    found.executed = Body.recorded (s.parts.map NamePart.text) := by
  obtain ⟨taken, rest, hargs, hread⟩ := s.exists_read_tokens
  rw [hread] at h
  obtain ⟨own, others, hown, hothers, rfl⟩ := Body.followedBy_eq_ok h
  obtain rfl := Except.ok.inj hown
  have hbehind : others.executed = [] := Body.executed_eq_nil hothers fun t ht =>
    s.not_exec_token t (hargs ▸ List.mem_append_right taken ht)
  have hperiod : taken.head? ≠ some .period := by
    intro hhead
    obtain ⟨ts, rfl⟩ := List.head?_eq_some_iff.mp hhead
    exact s.not_period (hargs ▸ rfl)
  rw [Findings.append, s.executed_readExec_lead hperiod, hbehind, List.append_nil]

/-- Without a select behind it, the statement is read. -/
theorem exists_found
    (s : ExecStatement) (h : ∀ t ∈ s.argumentTokens, t.isKw "SELECT" = false) :
    ∃ found, Body.read [] s.tokens = .ok found := by
  obtain ⟨taken, rest, hargs, hread⟩ := s.exists_read_tokens
  obtain ⟨others, hothers⟩ := Body.exists_read [] fun t ht =>
    h t (hargs ▸ List.mem_append_right taken ht)
  rw [hread, hothers]
  exact ⟨_, rfl⟩

end ExecStatement

end SqlSnapshot
