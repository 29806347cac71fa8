import SqlSnapshot.ParseError
import SqlSnapshot.Text.Blank
import SqlSnapshot.Text.Numeral
import SqlSnapshot.Token.Basic

/-!
# Cutting text into tokens

`lexeme` takes one lexeme off the front of a text.  Comments and blanks are trivia and leave no
token.  A failure carries the rest of the text at which it was met, so that its line and column
follow from the length of that rest.
-/

namespace SqlSnapshot.Token

/-- `placeholder` is a name such as `$1`, which is a word to the analysis but not to the rule for a
period before an underscore. -/
inductive Lexeme where
  | trivia
  | word (text : String) (quoted : Bool)
  | placeholder (text : String)
  | symbol (token : Token)
deriving DecidableEq, Repr, Inhabited

namespace Lexeme

def token? : Lexeme → Option Token
  | .trivia => none
  | .word text quoted => some (.word text quoted)
  | .placeholder text => some (.word text false)
  | .symbol t => some t

def isName : Lexeme → Bool
  | .word _ _ => true
  | _ => false

end Lexeme

/-- A fault and the rest of the text where it was met. -/
structure LexFailure where
  fault : LexFault
  rest : List Char

/-! ## Parts of lexemes -/

/-- The text up to the closing delimiter, which stands for itself when doubled. -/
def readDelimited (close : Char) : List Char → Option (List Char × List Char)
  | [] => none
  | [c] => if c = close then some ([], []) else none
  | c :: d :: cs =>
    if c = close then
      if d = close then
        (readDelimited close cs).map fun (text, rest) => (close :: text, rest)
      else some ([], d :: cs)
    else (readDelimited close (d :: cs)).map fun (text, rest) => (c :: text, rest)

/-- What is left stands behind a closing delimiter. -/
theorem isSuffix_close_readDelimited {close : Char} {cs text rest : List Char}
    (h : readDelimited close cs = some (text, rest)) : close :: rest <:+ cs := by
  fun_induction readDelimited close cs generalizing text rest with
  | case1 => cases h
  | case2 => simp_all
  | case3 => cases h
  | case4 cs ih =>
    obtain ⟨⟨inner, after⟩, hinner, heq⟩ := Option.map_eq_some_iff.mp h
    cases heq
    exact (ih hinner).trans ((List.suffix_cons _ _).trans (List.suffix_cons _ _))
  | case5 d ds hd =>
    cases h
    exact List.suffix_refl _
  | case6 c d ds hc ih =>
    obtain ⟨⟨inner, after⟩, hinner, heq⟩ := Option.map_eq_some_iff.mp h
    cases heq
    exact (ih hinner).trans (List.suffix_cons _ _)

theorem length_readDelimited {close : Char} {cs text rest : List Char}
    (h : readDelimited close cs = some (text, rest)) : rest.length < cs.length :=
  (isSuffix_close_readDelimited h).length_le

/-- Skips a hexadecimal literal up to its closing quote; a backslash hides the next character. -/
def skipHexText : List Char → Option (List Char)
  | [] => none
  | '\\' :: [] => none
  | '\\' :: _ :: cs => skipHexText cs
  | '\x27' :: '\x27' :: cs => skipHexText cs
  | '\x27' :: cs => some cs
  | _ :: cs => skipHexText cs

theorem isSuffix_quote_skipHexText {cs rest : List Char} (h : skipHexText cs = some rest) :
    '\x27' :: rest <:+ cs := by
  fun_induction skipHexText cs <;> grind [List.suffix_cons_iff, List.suffix_refl]

theorem length_skipHexText {cs rest : List Char} (h : skipHexText cs = some rest) :
    rest.length < cs.length :=
  (isSuffix_quote_skipHexText h).length_le

def skipLine (cs : List Char) : List Char :=
  (cs.dropWhile (· != '\n')).drop 1

/-- Skips the rest of a comment, inside which `depth` further comments are open. -/
def skipComment : (depth : Nat) → List Char → Option (List Char)
  | _, [] => none
  | depth, '/' :: '*' :: cs => skipComment (depth + 1) cs
  | 0, '*' :: '/' :: cs => some cs
  | depth + 1, '*' :: '/' :: cs => skipComment depth cs
  | depth, _ :: cs => skipComment depth cs

theorem isSuffix_mark_skipComment {depth : Nat} {cs rest : List Char}
    (h : skipComment depth cs = some rest) : ['*', '/'] ++ rest <:+ cs := by
  fun_induction skipComment depth cs <;> grind [List.suffix_cons_iff, List.suffix_refl]

theorem length_skipComment {depth : Nat} {cs rest : List Char}
    (h : skipComment depth cs = some rest) : rest.length < cs.length :=
  Nat.lt_of_succ_lt (isSuffix_mark_skipComment h).length_le

/-- The rest of the text after the first place where `mark` stands. -/
def skipPast (mark : List Char) : List Char → Option (List Char)
  | [] => if mark.isEmpty then some [] else none
  | c :: cs => if mark.isPrefixOf (c :: cs) then some ((c :: cs).drop mark.length) else
    skipPast mark cs

theorem isSuffix_mark_skipPast {mark cs rest : List Char} (h : skipPast mark cs = some rest) :
    mark ++ rest <:+ cs := by
  fun_induction skipPast mark cs with
  | case1 => simp_all
  | case2 => cases h
  | case3 c cs hmark =>
    cases h
    have hcut := List.prefix_iff_eq_append.mp (List.isPrefixOf_iff_prefix.mp hmark)
    exact ⟨[], hcut⟩
  | case4 c cs hmark ih => exact (ih h).trans (List.suffix_cons c cs)

theorem length_skipPast {mark cs rest : List Char} (h : skipPast mark cs = some rest) :
    rest.length ≤ cs.length :=
  ((List.suffix_append mark rest).trans (isSuffix_mark_skipPast h)).length_le

def isNamePart (c : Char) : Bool :=
  Text.isLetter c || Text.isDigit c || c == '@' || c == '$' || c == '#' || c == '_'

/-- A name that starts with the given characters. -/
def readName (start cs : List Char) : Lexeme × List Char :=
  (.word (String.ofList (start ++ cs.takeWhile isNamePart)) false, cs.dropWhile isNamePart)

theorem length_dropWhile_le (p : Char → Bool) (cs : List Char) :
    (cs.dropWhile p).length ≤ cs.length :=
  (List.dropWhile_sublist p).length_le

/-- An exponent: its text and the rest.  Without a digit there is none. -/
def readExponent (cs : List Char) : List Char × List Char :=
  match cs with
  | e :: rest =>
    if e = 'e' ∨ e = 'E' then
      let (sign, ds) :=
        match rest with
        | '+' :: ds => (['+'], ds)
        | '-' :: ds => (['-'], ds)
        | ds => ([], ds)
      let digits := ds.takeWhile Text.isDigit
      if digits.isEmpty then ([], cs) else (e :: (sign ++ digits), ds.dropWhile Text.isDigit)
    else ([], cs)
  | [] => ([], [])

theorem isSuffix_readExponent (cs : List Char) : (readExponent cs).2 <:+ cs := by
  unfold readExponent
  split
  · rename_i e rest
    have hdigits : ∀ sign ds : List Char, ds <:+ rest →
        (if (ds.takeWhile Text.isDigit).isEmpty then ([], e :: rest)
          else (e :: (sign ++ ds.takeWhile Text.isDigit), ds.dropWhile Text.isDigit)).2 <:+
        e :: rest := by
      intro sign ds hds
      split
      · exact List.suffix_refl _
      · exact ((List.dropWhile_suffix _).trans hds).trans (List.suffix_cons e rest)
    split
    · dsimp only
      split
      · exact hdigits ['+'] _ (List.suffix_cons _ _)
      · exact hdigits ['-'] _ (List.suffix_cons _ _)
      · exact hdigits [] _ (List.suffix_refl _)
    · exact List.suffix_refl _
  · exact List.suffix_refl _

/-- The mark of a long literal is skipped. -/
def skipLong : List Char → List Char
  | 'L' :: cs => cs
  | cs => cs

theorem isSuffix_skipLong (cs : List Char) : skipLong cs <:+ cs := by
  unfold skipLong
  split
  · exact List.suffix_cons _ _
  · exact List.suffix_refl _

/-- A number after its integer digits and point. -/
def finishNumber (start cs : List Char) : Lexeme × List Char :=
  let places := cs.takeWhile Text.isDigit
  if start = ['.'] ∧ places.isEmpty then (.symbol .period, cs)
  else
    let (exponent, rest) := readExponent (cs.dropWhile Text.isDigit)
    (.symbol (.num (String.ofList (start ++ places ++ exponent))), skipLong rest)

theorem isSuffix_finishNumber (start cs : List Char) : (finishNumber start cs).2 <:+ cs := by
  unfold finishNumber
  dsimp only
  split
  · exact List.suffix_refl _
  · exact (isSuffix_skipLong _).trans ((isSuffix_readExponent _).trans (List.dropWhile_suffix _))

/-- A number literal, a hexadecimal one, or a period that starts no number. -/
def readNumber (cs : List Char) : Lexeme × List Char :=
  let whole := cs.takeWhile Text.isDigit
  match whole, cs.dropWhile Text.isDigit with
  | ['0'], 'x' :: rest => (.symbol (.other "0x"), rest.dropWhile Text.isHexDigit)
  | whole, '.' :: rest => finishNumber (whole ++ ['.']) rest
  | whole, rest => finishNumber whole rest

/-- A number takes its first character. -/
theorem isSuffix_readNumber {c : Char} (cs : List Char) (h : Text.isDigit c = true ∨ c = '.') :
    (readNumber (c :: cs)).2 <:+ cs := by
  have htail : ∀ d rest, (c :: cs).dropWhile Text.isDigit = d :: rest → rest <:+ cs := by
    intro d rest hrest
    have hdigits : d :: rest <:+ c :: cs := hrest ▸ List.dropWhile_suffix Text.isDigit
    obtain heq | hsuffix := List.suffix_cons_iff.mp hdigits
    · exact (List.cons.inj heq).2 ▸ List.suffix_refl _
    · exact (List.suffix_cons d rest).trans hsuffix
  unfold readNumber
  dsimp only
  split
  · rename_i rest _ hrest
    exact (List.dropWhile_suffix _).trans (htail _ _ hrest)
  · rename_i rest hrest
    exact (isSuffix_finishNumber _ _).trans (htail _ _ hrest)
  · rename_i hpoint _
    refine (isSuffix_finishNumber _ _).trans ?_
    obtain hdigit | rfl := h
    · rw [List.dropWhile_cons_of_pos hdigit]
      exact List.dropWhile_suffix _
    · exact absurd (List.dropWhile_cons_of_neg (by decide)) (hpoint cs)

/-- A literal between dollar signs, or a placeholder: the text after the first dollar sign. -/
def readDollar (cs : List Char) : Except LexFailure (Lexeme × List Char) :=
  match cs with
  | '$' :: rest =>
    match skipPast ['$', '$'] rest with
    | some rest => .ok (.symbol (.other "$$"), rest)
    | none => .error ⟨.unterminatedDollarString, []⟩
  | _ =>
    let isTagPart := fun c => Text.isAlphanumeric c || c == '_'
    let tag := cs.takeWhile isTagPart
    match cs.dropWhile isTagPart with
    | '$' :: rest =>
      match skipPast ('$' :: (tag ++ ['$'])) rest with
      | some rest => .ok (.symbol (.other "$$"), rest)
      | none => .error ⟨.unterminatedTaggedString, []⟩
    | rest => .ok (.placeholder (String.ofList ('$' :: tag)), rest)

theorem isSuffix_readDollar {cs rest : List Char} {l : Lexeme}
    (h : readDollar cs = .ok (l, rest)) : rest <:+ cs := by
  have hpast : ∀ {mark ds rest : List Char}, '$' :: ds <:+ cs → skipPast mark ds = some rest →
      rest <:+ cs :=
    fun hds hskip => ((List.suffix_append _ _).trans (isSuffix_mark_skipPast hskip)).trans
      ((List.suffix_cons _ _).trans hds)
  unfold readDollar at h
  split at h
  · split at h
    · rename_i hskip
      cases h
      exact hpast (List.suffix_refl _) hskip
    · cases h
  · dsimp only at h
    split at h
    · rename_i htag
      split at h
      · rename_i hskip
        cases h
        exact hpast (htag ▸ List.dropWhile_suffix _) hskip
      · cases h
    · cases h
      exact List.dropWhile_suffix _

/-- What an at sign starts: the text after it. -/
def readAt (cs : List Char) : Lexeme × List Char :=
  match cs with
  | '>' :: rest => (.symbol (.other "@>"), rest)
  | '?' :: rest => (.symbol (.other "@?"), rest)
  | '@' :: rest =>
    match rest with
    | [] => (.symbol (.other "@@"), [])
    | c :: rest' => if c = ' ' then (.symbol (.other "@@"), rest) else readName ['@', '@', c] rest'
  | [] => (.symbol (.other "@"), [])
  | c :: rest =>
    if c = ' ' ∨ c = '\x27' ∨ c = '\x22' ∨ c = '\x60' then (.symbol (.other "@"), cs)
    else readName ['@', c] rest

theorem isSuffix_readAt (cs : List Char) : (readAt cs).2 <:+ cs := by
  have hname : ∀ ds : List Char, ds <:+ cs → ds.dropWhile isNamePart <:+ cs :=
    fun ds hds => (List.dropWhile_suffix _).trans hds
  unfold readAt readName
  grind [List.suffix_cons_iff, List.suffix_refl]

/-- What a number sign starts: the text after it. -/
def readSharp (cs : List Char) : Lexeme × List Char :=
  match cs with
  | '-' :: rest => (.symbol (.other "#-"), rest)
  | '>' :: '>' :: rest => (.symbol (.other "#>>"), rest)
  | '>' :: rest => (.symbol (.other "#>"), rest)
  | [] => (.symbol (.other "#"), [])
  | c :: rest => if c = ' ' then (.symbol (.other "#"), cs) else readName ['#', c] rest

theorem isSuffix_readSharp (cs : List Char) : (readSharp cs).2 <:+ cs := by
  have hname : ∀ ds : List Char, ds <:+ cs → ds.dropWhile isNamePart <:+ cs :=
    fun ds hds => (List.dropWhile_suffix _).trans hds
  unfold readSharp readName
  grind [List.suffix_cons_iff, List.suffix_refl]

/-- The operators of more than one character, longer ones before their beginnings, each with the
text of its token: both spellings of "not equal" are one operator. -/
def operators : List (String × String) :=
  ["->>", "->", "==", "!!", "!~~*", "!~~", "!~*", "!~", "<=>", "<=", "<>", "<<", "<@", ">=",
   ">>", "||/", "||", "|/", "&&", "^@", "~~*", "~~", "~*", "::", ":=", "=>"].map
    (fun s => (s, s)) ++
  [("!=", "<>")]

/-- The longest operator at the front of the text, or its first character. -/
def readOperator (c : Char) (cs : List Char) : Lexeme × List Char :=
  match operators.find? fun op => op.1.toList.isPrefixOf (c :: cs) with
  | some op => (.symbol (.other op.2), cs.drop (op.1.toList.length - 1))
  | none => (.symbol (.other (String.ofList [c])), cs)

theorem isSuffix_readOperator (c : Char) (cs : List Char) : (readOperator c cs).2 <:+ cs := by
  unfold readOperator
  split
  · exact List.drop_suffix _ _
  · exact List.suffix_refl _

def isSpaceChar (c : Char) : Bool :=
  c == ' ' || c == '\t' || c == '\n' || c == '\r'

/-- A literal in single quotes: the text after the opening quote. -/
def readString (cs : List Char) : Except LexFailure (Lexeme × List Char) :=
  match readDelimited '\x27' cs with
  | some (text, rest) => .ok (.symbol (.str (String.ofList text)), rest)
  | none => .error ⟨.unterminatedString, '\x27' :: cs⟩

/-- A name in delimiters: the text after the opening one. -/
def readQuotedName (opening close : Char) (cs : List Char) :
    Except LexFailure (Lexeme × List Char) :=
  match readDelimited close cs with
  | some (text, rest) => .ok (.word (String.ofList text) true, rest)
  | none => .error ⟨.unclosedName close, opening :: cs⟩

/-- A literal after a national or hexadecimal mark, or a name that starts with the letter. -/
def readMarked (c : Char) (cs : List Char) : Except LexFailure (Lexeme × List Char) :=
  match cs with
  | '\x27' :: rest =>
    if c = 'N' ∨ c = 'n' then readString rest
    else
      match skipHexText rest with
      | some rest => .ok (.symbol (.other "X''"), rest)
      | none => .error ⟨.unterminatedString, cs⟩
  | _ => .ok (readName [c] cs)

/-- A symbol of one character, a name, a blank or an operator. -/
def readPlain (c : Char) (cs : List Char) : Lexeme × List Char :=
  if c = '(' then (.symbol .lparen, cs)
  else if c = ')' then (.symbol .rparen, cs)
  else if c = ',' then (.symbol .comma, cs)
  else if c = ';' then (.symbol .semicolon, cs)
  else if c = '*' then (.symbol .star, cs)
  else if c = '=' ∧ cs.head? ≠ some '=' ∧ cs.head? ≠ some '>' then (.symbol .equals, cs)
  else if Text.isLetter c ∨ c = '_' then readName [c] cs
  else if Text.isBlank c then (.trivia, cs)
  else readOperator c cs

/-- A number, a comment, what one of the marks `$ ? @ #` starts, or a plain lexeme. -/
def readUnquoted (afterName : Bool) (c : Char) (cs : List Char) :
    Except LexFailure (Lexeme × List Char) :=
  if c = '.' ∧ cs.head? = some '_' then
    if afterName then .ok (.symbol .period, cs)
    else .error ⟨.unexpectedUnderscore, c :: cs⟩
  else if Text.isDigit c = true ∨ c = '.' then .ok (readNumber (c :: cs))
  else if c = '-' ∧ cs.head? = some '-' then .ok (.trivia, skipLine cs)
  else if c = '/' ∧ cs.head? = some '*' then
    match skipComment 0 cs.tail with
    | some rest => .ok (.trivia, rest)
    | none => .error ⟨.unclosedComment, []⟩
  else if c = '$' then readDollar cs
  else if c = '?' then
    .ok (.placeholder (String.ofList ('?' :: cs.takeWhile Text.isNumeral)),
      cs.dropWhile Text.isNumeral)
  else if c = '@' then .ok (readAt cs)
  else if c = '#' then .ok (readSharp cs)
  else .ok (readPlain c cs)

/-- The lexeme that starts with `c`; `afterName` tells that a name stands directly before it. -/
def lexeme (afterName : Bool) (c : Char) (cs : List Char) :
    Except LexFailure (Lexeme × List Char) :=
  if isSpaceChar c then .ok (.trivia, cs)
  else if c = 'N' ∨ c = 'n' ∨ c = 'X' ∨ c = 'x' then readMarked c cs
  else if c = '\x27' then readString cs
  else if c = '\x22' then readQuotedName c c cs
  else if c = '[' then readQuotedName c ']' cs
  else readUnquoted afterName c cs

/-! ## What a lexeme leaves over -/

private theorem isSuffix_ite {p : Prop} [Decidable p] {a b : Lexeme × List Char} {cs : List Char}
    (ha : a.2 <:+ cs) (hb : b.2 <:+ cs) : (if p then a else b).2 <:+ cs := by
  split
  · exact ha
  · exact hb

theorem isSuffix_readPlain (c : Char) (cs : List Char) : (readPlain c cs).2 <:+ cs := by
  have hkeep : cs <:+ cs := List.suffix_refl cs
  unfold readPlain
  refine isSuffix_ite hkeep (isSuffix_ite hkeep (isSuffix_ite hkeep (isSuffix_ite hkeep ?_)))
  refine isSuffix_ite hkeep (isSuffix_ite hkeep (isSuffix_ite (List.dropWhile_suffix _) ?_))
  exact isSuffix_ite hkeep (isSuffix_readOperator c cs)

theorem isSuffix_readString {cs rest : List Char} {l : Lexeme}
    (h : readString cs = .ok (l, rest)) : rest <:+ cs := by
  unfold readString at h
  split at h
  · rename_i hdelimited
    cases h
    exact (List.suffix_cons _ _).trans (isSuffix_close_readDelimited hdelimited)
  · cases h

theorem isSuffix_readQuotedName {opening close : Char} {cs rest : List Char} {l : Lexeme}
    (h : readQuotedName opening close cs = .ok (l, rest)) : rest <:+ cs := by
  unfold readQuotedName at h
  split at h
  · rename_i hdelimited
    cases h
    exact (List.suffix_cons _ _).trans (isSuffix_close_readDelimited hdelimited)
  · cases h

private theorem isSuffix_of_ok {f : Lexeme × List Char} {cs rest : List Char} {l : Lexeme}
    (h : (Except.ok f : Except LexFailure _) = .ok (l, rest)) (hf : f.2 <:+ cs) : rest <:+ cs := by
  cases h
  exact hf

theorem isSuffix_readMarked {c : Char} {cs rest : List Char} {l : Lexeme}
    (h : readMarked c cs = .ok (l, rest)) : rest <:+ cs := by
  unfold readMarked at h
  split at h
  · split at h
    · exact (isSuffix_readString h).trans (List.suffix_cons _ _)
    · split at h
      · rename_i hskip
        cases h
        exact ((List.suffix_cons _ _).trans (isSuffix_quote_skipHexText hskip)).trans
          (List.suffix_cons _ _)
      · cases h
  · exact isSuffix_of_ok h (List.dropWhile_suffix _)

theorem isSuffix_readUnquoted {afterName : Bool} {c : Char} {cs rest : List Char} {l : Lexeme}
    (h : readUnquoted afterName c cs = .ok (l, rest)) : rest <:+ cs := by
  unfold readUnquoted at h
  split at h
  · split at h
    · exact isSuffix_of_ok h (List.suffix_refl _)
    · cases h
  split at h
  · rename_i hc
    exact isSuffix_of_ok h (isSuffix_readNumber cs hc)
  split at h
  · exact isSuffix_of_ok h ((List.drop_suffix 1 _).trans (List.dropWhile_suffix _))
  split at h
  · split at h
    · rename_i hskip
      cases h
      exact ((List.suffix_append _ _).trans (isSuffix_mark_skipComment hskip)).trans
        (List.tail_suffix cs)
    · cases h
  split at h; · exact isSuffix_readDollar h
  split at h; · exact isSuffix_of_ok h (List.dropWhile_suffix _)
  split at h; · exact isSuffix_of_ok h (isSuffix_readAt cs)
  split at h; · exact isSuffix_of_ok h (isSuffix_readSharp cs)
  exact isSuffix_of_ok h (isSuffix_readPlain c cs)

theorem isSuffix_lexeme {afterName : Bool} {c : Char} {cs rest : List Char} {l : Lexeme}
    (h : lexeme afterName c cs = .ok (l, rest)) : rest <:+ cs := by
  unfold lexeme at h
  split at h; · exact isSuffix_of_ok h (List.suffix_refl _)
  split at h; · exact isSuffix_readMarked h
  split at h; · exact isSuffix_readString h
  split at h; · exact isSuffix_readQuotedName h
  split at h; · exact isSuffix_readQuotedName h
  exact isSuffix_readUnquoted h

theorem length_lexeme {afterName : Bool} {c : Char} {cs rest : List Char} {l : Lexeme}
    (h : lexeme afterName c cs = .ok (l, rest)) : rest.length ≤ cs.length :=
  (isSuffix_lexeme h).length_le

/-! ## Whole texts -/

def lexemes (afterName : Bool) : (cs : List Char) → Except LexFailure (List Lexeme)
  | [] => .ok []
  | c :: cs =>
    match h : lexeme afterName c cs with
    | .error e => .error e
    | .ok (l, rest) =>
      have : rest.length ≤ cs.length := length_lexeme h
      match lexemes l.isName rest with
      | .error e => .error e
      | .ok ls => .ok (l :: ls)
termination_by cs => cs.length

/-- A lone `@` or `#` joins the unquoted word after it. -/
def joinSigils : List Token → List Token
  | .other sigil :: .word text false :: ts =>
    if sigil = "@" ∨ sigil = "#" then .word (sigil ++ text) false :: joinSigils ts
    else .other sigil :: joinSigils (.word text false :: ts)
  | t :: ts => t :: joinSigils ts
  | [] => []

/-- Line and column, both from 1, of the character after `cs`. -/
def position (cs : List Char) : Nat × Nat :=
  cs.foldl (fun (line, column) c => if c = '\n' then (line + 1, 1) else (line, column + 1)) (1, 1)

def tokenize (sql : String) : Except ParseError (List Token) :=
  let cs := sql.toList
  match lexemes false cs with
  | .ok ls => .ok (joinSigils (ls.filterMap Lexeme.token?))
  | .error ⟨fault, rest⟩ =>
    let (line, column) := position (cs.take (cs.length - rest.length))
    .error (.lexical fault line column)

end SqlSnapshot.Token
