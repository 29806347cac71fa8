import SqlSnapshot.Proofs.Filter.Names
import SqlSnapshot.Proofs.Text.NameChars
import SqlSnapshot.Proofs.Token.Comments
import SqlSnapshot.Token.Name

/-!
# Dotted names

A name is written as parts with periods between them, each a plain identifier or a text in square
brackets.  Whatever stands behind the name without going on with its last part, the lexer reads
every part as one word, and the reader of names takes exactly these words.
-/

namespace SqlSnapshot

open Text

namespace Token

variable {afterName : Bool} {c : Char} {cs rest : List Char} {l : Lexeme} {t : Token}
  {ts : List Token}

/-! ## Tokens of the rest of a text -/

/-- The tokens of a text; `afterName` tells that a name stands directly before it. -/
def tokensFrom (afterName : Bool) (cs : List Char) : Except LexFailure (List Token) :=
  (lexemes afterName cs).map fun ls => joinSigils (ls.filterMap Lexeme.token?)

theorem tokenize_of_tokensFrom
    (h : tokensFrom false cs = .ok ts) :
    tokenize (String.ofList cs) = .ok ts := by
  obtain ⟨ls, hls, rfl⟩ := exists_of_map_eq_ok h
  simp only [tokenize, String.toList_ofList, hls]

theorem tokensFrom_afterName
    (h : ¬ ['.', '_'] <+: cs) (afterName : Bool) :
    tokensFrom afterName cs = tokensFrom false cs := by
  rw [tokensFrom, tokensFrom, lexemes_afterName h]

theorem tokensFrom_trivia
    (h : lexeme afterName c cs = .ok (.trivia, rest)) :
    tokensFrom afterName (c :: cs) = tokensFrom false rest := by
  rw [tokensFrom, tokensFrom, lexemes_of_lexeme h]
  show ((lexemes false rest).map (.trivia :: ·)).map _ = _
  cases lexemes false rest <;> rfl

/-- Only a sigil could join what follows it. -/
theorem joinSigils_cons
    (h : ∀ text, t ≠ .other text) (ts : List Token) :
    joinSigils (t :: ts) = t :: joinSigils ts := by
  cases t with
  | other text => exact absurd rfl (h text)
  | _ => rw [joinSigils]; simp

theorem tokensFrom_cons
    (h : lexeme afterName c cs = .ok (l, rest)) (hl : l.token? = some t)
    (ht : ∀ text, t ≠ .other text) :
    tokensFrom afterName (c :: cs) = (tokensFrom l.isName rest).map (t :: ·) := by
  rw [tokensFrom, tokensFrom, lexemes_of_lexeme h]
  cases lexemes l.isName rest with
  | error e => rfl
  | ok ls =>
    show Except.ok (joinSigils ((l :: ls).filterMap Lexeme.token?)) = _
    rw [List.filterMap_cons_some hl, joinSigils_cons ht]
    rfl

/-! ## Blanks, names and periods -/

theorem lexeme_blank
    (h : isBlank c = true) (afterName : Bool) (cs : List Char) :
    lexeme afterName c cs = .ok (.trivia, cs) := by
  have hplain := forall_blank (p := fun c => !isDigit c && !isLetter c &&
    !"NnXx'\"[.-/$?@#(),;*=_".toList.contains c) (by decide +kernel) h
  simp at hplain
  by_cases hspace : isSpaceChar c = true
  · rw [lexeme, if_pos hspace]
  · simp [lexeme, hspace, readUnquoted, readPlain, hplain, h]

theorem tokensFrom_blanks
    {gap : List Char} (hgap : ∀ c ∈ gap, isBlank c = true) (hrest : ¬ ['.', '_'] <+: rest)
    (afterName : Bool) :
    tokensFrom afterName (gap ++ rest) = tokensFrom false rest := by
  induction gap generalizing afterName with
  | nil => exact tokensFrom_afterName hrest afterName
  | cons c gap ih =>
    obtain ⟨hc, hothers⟩ := List.forall_mem_cons.mp hgap
    rw [List.cons_append, tokensFrom_trivia (lexeme_blank hc _ _), ih hothers]

/-- No character stands there that would go on with a plain name, or make a mark of it. -/
def EndsName (rest : List Char) : Prop :=
  ∀ c ∈ rest.head?, isNamePart c = false ∧ isWordChar c = false ∧ c ≠ '\x27'

theorem endsName_of_blank
    (h : isBlank c = true) (rest : List Char) :
    EndsName (c :: rest) := by
  have hplain := forall_blank (p := fun c => !isNamePart c && !isWordChar c && c != '\x27')
    (by decide +kernel) h
  rintro d ⟨⟩
  simpa [and_assoc] using hplain

theorem span_append
    {p : Char → Bool} {front : List Char} (hfront : ∀ c ∈ front, p c = true)
    (hrest : ∀ c ∈ rest.head?, p c = false) :
    (front ++ rest).takeWhile p = front ∧ (front ++ rest).dropWhile p = rest := by
  have hnone : rest.takeWhile p = [] := by
    cases rest with
    | nil => rfl
    | cons c rest => rw [List.takeWhile_cons, hrest c rfl]; rfl
  rw [List.takeWhile_append_of_pos hfront, List.dropWhile_append_of_pos hfront, hnone,
    dropWhile_of_head? hrest, List.append_nil]
  exact ⟨rfl, rfl⟩

theorem readName_append
    {start name : List Char} (hname : ∀ c ∈ name, isNamePart c = true) (h : EndsName rest) :
    readName start (name ++ rest) = (.word (String.ofList (start ++ name)) false, rest) := by
  obtain ⟨htake, hdrop⟩ := span_append hname fun c hc => (h c hc).1
  rw [readName, htake, hdrop]

theorem lexeme_of_startsIdentifier
    (hc : startsIdentifier c = true) (hquote : cs.head? ≠ some '\x27') (afterName : Bool) :
    lexeme afterName c cs = .ok (readName [c] cs) := by
  have hascii := ascii_of_isIdentifierChar (isIdentifierChar_of_starts hc)
  have hplain := forall_ascii (p := fun c => !startsIdentifier c || (!isSpaceChar c &&
    !isDigit c && (isLetter c || c == '_') && !"'\"[.-/$?@#(),;*=".toList.contains c))
    (by decide +kernel) hascii
  simp [hc] at hplain
  obtain ⟨⟨⟨hspace, hdigit⟩, hletter⟩, hplain⟩ := hplain
  by_cases hmarked : c = 'N' ∨ c = 'n' ∨ c = 'X' ∨ c = 'x'
  · rw [lexeme, hspace, if_neg Bool.false_ne_true, if_pos hmarked, readMarked_of_head? hquote]
  · simp [lexeme, hspace, hmarked, readUnquoted, readPlain, hdigit, hletter, hplain]

theorem tokensFrom_identifier
    {name : List Char} (hname : IsIdentifier name) (h : EndsName rest) (afterName : Bool) :
    tokensFrom afterName (name ++ rest) =
      (tokensFrom true rest).map (.word (String.ofList name) false :: ·) := by
  cases name with
  | nil => exact hname.elim
  | cons c cs =>
    have hparts : ∀ d ∈ cs, IsNameOnly d := fun d hd =>
      isNameOnly_of_isIdentifierChar (hname.2 d hd)
    have hquote : (cs ++ rest).head? ≠ some '\x27' := by
      cases cs with
      | nil => exact fun hhead => (h '\x27' hhead).2.2 rfl
      | cons d cs =>
        intro hhead
        have hmark := (hparts d List.mem_cons_self).unmarked
        rw [Option.some.inj hhead] at hmark
        exact absurd hmark (by decide)
    have hread : lexeme afterName c (cs ++ rest) =
        .ok (.word (String.ofList (c :: cs)) false, rest) := by
      rw [lexeme_of_startsIdentifier hname.1 hquote,
        readName_append (fun d hd => (hparts d hd).isNamePart) h]
      rfl
    exact tokensFrom_cons hread rfl (by simp)

theorem readDelimited_closed
    {close : Char} {text : List Char} (h : ∀ c ∈ text, c ≠ close)
    (hrest : rest.head? ≠ some close) :
    readDelimited close (text ++ close :: rest) = some (text, rest) := by
  have halone : readDelimited close (text ++ [close]) = some (text, []) := by
    induction text with
    | nil => simp [readDelimited]
    | cons c text ih =>
      obtain ⟨hc, hothers⟩ := List.forall_mem_cons.mp h
      have hnext := ih hothers
      cases text with
      | nil => simp [readDelimited, hc]
      | cons d text =>
        rw [List.cons_append] at hnext
        simp [readDelimited, hc, hnext]
  have hlonger := readDelimited_append hrest halone
  rwa [List.append_assoc, List.singleton_append, List.nil_append] at hlonger

theorem tokensFrom_bracketed
    {name : List Char} (hname : Descriptor.IsBracketFree name) (hrest : rest.head? ≠ some ']')
    (afterName : Bool) :
    tokensFrom afterName ('[' :: (name ++ ']' :: rest)) =
      (tokensFrom true rest).map (.word (String.ofList name) true :: ·) := by
  have hclosed := readDelimited_closed (fun c hc => (hname c hc).2) hrest
  have hread : lexeme afterName '[' (name ++ ']' :: rest) =
      .ok (.word (String.ofList name) true, rest) := by
    simp [lexeme, isSpaceChar, readQuotedName, hclosed]
  exact tokensFrom_cons hread rfl (by simp)

/-- Behind a name, a period before anything but a digit stands for itself. -/
theorem tokensFrom_period
    (hc : isDigit c = false) (cs : List Char) :
    tokensFrom true ('.' :: c :: cs) = (tokensFrom false (c :: cs)).map (.period :: ·) := by
  have hnumber : readNumber ('.' :: c :: cs) = (.symbol .period, c :: cs) := by
    have hpoint : ¬ isDigit '.' = true := by decide
    rw [readNumber, List.takeWhile_cons_of_neg hpoint, List.dropWhile_cons_of_neg hpoint]
    simp [finishNumber, hc]
  have hread : lexeme true '.' (c :: cs) = .ok (.symbol .period, c :: cs) := by
    by_cases hscore : c = '_' <;> simp [lexeme, isSpaceChar, readUnquoted, hscore, hnumber]
  exact tokensFrom_cons hread rfl (by simp)

end Token

open Token

/-! ## Parts of names -/

/-- A text that is a name when it stands in square brackets; no comment starts in it. -/
structure IsBracketName (cs : List Char) : Prop where
  ne_nil : cs ≠ []
  isBracketFree : Descriptor.IsBracketFree cs
  noLine : ¬ ['-', '-'] <:+: cs
  noBlock : ¬ ['/', '*'] <:+: cs

/-- A part of a dotted name. -/
inductive NamePart where
  | plain (name : List Char) (h : IsIdentifier name)
  | bracketed (name : List Char) (h : IsBracketName name)

namespace NamePart

variable {p q : NamePart} {ps : List NamePart} {rest : List Char} {ts : List Token}

def text : NamePart → String
  | plain name _ => String.ofList name
  | bracketed name _ => String.ofList name

def written : NamePart → List Char
  | plain name _ => name
  | bracketed name _ => '[' :: name ++ [']']

def isQuoted : NamePart → Bool
  | plain _ _ => false
  | bracketed _ _ => true

def token (p : NamePart) : Token :=
  .word p.text p.isQuoted

/-- The rest does not go on with the part. -/
def IsEndedBy : NamePart → List Char → Prop
  | plain _ _, rest => EndsName rest
  | bracketed _ _, rest => rest.head? ≠ some ']'

/-- Further parts of a name, each behind a period. -/
def dotted (ps : List NamePart) : List Char :=
  ps.flatMap fun p => '.' :: p.written

def dottedTokens (ps : List NamePart) : List Token :=
  ps.flatMap fun p => [.period, p.token]

@[simp]
theorem dotted_cons (p : NamePart) (ps : List NamePart) :
    dotted (p :: ps) = '.' :: (p.written ++ dotted ps) := rfl

@[simp]
theorem dottedTokens_cons (p : NamePart) (ps : List NamePart) :
    dottedTokens (p :: ps) = .period :: p.token :: dottedTokens ps := rfl

/-- The last of the parts that start with `p` and go on with `ps`. -/
def last (p : NamePart) (ps : List NamePart) : NamePart :=
  ps.getLast?.getD p

theorem last_cons (p q : NamePart) (ps : List NamePart) : last p (q :: ps) = last q ps := by
  rw [last, List.getLast?_cons]
  rfl

theorem isEndedBy_dot (p : NamePart) (rest : List Char) : p.IsEndedBy ('.' :: rest) := by
  cases p with
  | plain name h =>
    rintro c ⟨⟩
    decide +kernel
  | bracketed name h => simp [IsEndedBy]

/-- A part starts like an identifier, or with a bracket. -/
theorem exists_cons_written (p : NamePart) :
    ∃ c cs, p.written = c :: cs ∧ (startsIdentifier c = true ∨ c = '[') := by
  cases p with
  | plain name h =>
    cases name with
    | nil => exact h.elim
    | cons c cs => exact ⟨c, cs, rfl, .inl h.1⟩
  | bracketed name h => exact ⟨'[', _, rfl, .inr rfl⟩

theorem isDigit_of_starts
    {c : Char} (hc : startsIdentifier c = true ∨ c = '[') :
    isDigit c = false := by
  rcases hc with hc | rfl
  · have hascii := ascii_of_isIdentifierChar (isIdentifierChar_of_starts hc)
    have hchecked := forall_ascii (p := fun c => !startsIdentifier c || !isDigit c)
      (by decide +kernel) hascii
    simpa [hc] using hchecked
  · rfl

theorem tokensFrom_written
    (h : p.IsEndedBy rest) (afterName : Bool) :
    tokensFrom afterName (p.written ++ rest) = (tokensFrom true rest).map (p.token :: ·) := by
  cases p with
  | plain name hname => exact tokensFrom_identifier hname h afterName
  | bracketed name hname =>
    have hread := tokensFrom_bracketed hname.isBracketFree h afterName
    rwa [written, List.cons_append, List.cons_append, List.append_assoc, List.singleton_append]

/-- The lexer reads a name part by part. -/
theorem tokensFrom_name
    (h : (last p ps).IsEndedBy rest) (afterName : Bool) :
    tokensFrom afterName (p.written ++ (dotted ps ++ rest)) =
      (tokensFrom true rest).map (p.token :: dottedTokens ps ++ ·) := by
  induction ps generalizing p afterName with
  | nil => exact tokensFrom_written h afterName
  | cons q ps ih =>
    rw [last_cons] at h
    obtain ⟨c, cs, hq, hc⟩ := q.exists_cons_written
    have hdot := tokensFrom_period (isDigit_of_starts hc) (cs ++ (dotted ps ++ rest))
    have hnext := ih h false
    rw [hq, List.cons_append] at hnext
    rw [dotted_cons, hq, List.cons_append, List.append_assoc, List.cons_append,
      tokensFrom_written (isEndedBy_dot p _), hdot, hnext]
    cases tokensFrom true rest <;> rfl

/-- The reader of names takes the parts as they are, and stops behind them. -/
theorem readNameTail_dottedTokens
    (ps : List NamePart) (h : ts.head? ≠ some .period) :
    readNameTail (dottedTokens ps ++ ts) = (ps.map text, ts) := by
  induction ps with
  | nil =>
    cases ts with
    | nil => rfl
    | cons t ts =>
      rw [dottedTokens, List.flatMap_nil, List.nil_append, readNameTail]
      · rfl
      · rintro name quoted us heq
        simp_all
  | cons p ps ih =>
    rw [dottedTokens_cons, List.cons_append, List.cons_append, token, readNameTail, ih]
    rfl

end NamePart

end SqlSnapshot
