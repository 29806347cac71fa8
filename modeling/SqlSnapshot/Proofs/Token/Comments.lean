import SqlSnapshot.Proofs.Outcome
import SqlSnapshot.Proofs.Token.Lookahead

/-!
# Comments between lexemes

The lexer cuts a text that it reads into pieces, one for each lexeme (`IsCut`,
`exists_isCut`).  A comment that is put between two of them (`Insertion`) is a piece of its own:
the pieces before it and behind it are cut as before, and the tokens are the same
(`Insertion.tokenize_commented`).
-/

namespace SqlSnapshot.Token

/-! ## Pieces -/

/-- The lexer cuts the text that the pieces make up into these pieces. -/
def IsCut (afterName : Bool) : List (List Char) → Prop
  | [] => True
  | [] :: _ => False
  | (c :: cs) :: pieces =>
    match lexeme afterName c (cs ++ pieces.flatten) with
    | .ok (l, rest) => rest = pieces.flatten ∧ IsCut l.isName pieces
    | .error _ => False

instance decidableIsCut : ∀ (afterName : Bool) (pieces : List (List Char)),
    Decidable (IsCut afterName pieces)
  | _, [] => .isTrue trivial
  | _, [] :: _ => .isFalse id
  | afterName, (c :: cs) :: pieces =>
    match h : lexeme afterName c (cs ++ pieces.flatten) with
    | .ok (l, rest) =>
      have := decidableIsCut l.isName pieces
      decidable_of_iff (rest = pieces.flatten ∧ IsCut l.isName pieces) (by simp [IsCut, h])
    | .error _ => .isFalse (by simp [IsCut, h])

theorem isCut_cons {afterName : Bool} {c : Char} {cs : List Char} {pieces : List (List Char)} :
    IsCut afterName ((c :: cs) :: pieces) ↔
      ∃ l, lexeme afterName c (cs ++ pieces.flatten) = .ok (l, pieces.flatten) ∧
        IsCut l.isName pieces := by
  rcases h : lexeme afterName c (cs ++ pieces.flatten) with e | ⟨l, rest⟩
  · simp [IsCut, h]
  · simp only [IsCut, h, Except.ok.injEq, Prod.mk.injEq]
    constructor
    · rintro ⟨hrest, hcut⟩
      exact ⟨l, ⟨rfl, hrest⟩, hcut⟩
    · rintro ⟨_, ⟨rfl, hrest⟩, hcut⟩
      exact ⟨hrest, hcut⟩

theorem IsCut.exists_cons {afterName : Bool} {piece : List Char} {pieces : List (List Char)}
    (h : IsCut afterName (piece :: pieces)) : ∃ c cs, piece = c :: cs := by
  rcases piece with _ | ⟨c, cs⟩
  · cases h
  · exact ⟨c, cs, rfl⟩

theorem lexemes_of_lexeme {afterName : Bool} {c : Char} {cs rest : List Char} {l : Lexeme}
    (h : lexeme afterName c cs = .ok (l, rest)) :
    lexemes afterName (c :: cs) = (lexemes l.isName rest).map (l :: ·) := by
  rw [lexemes]
  split
  · simp_all
  · rename_i l' rest' h'
    obtain ⟨rfl, rfl⟩ : l = l' ∧ rest = rest' := by simpa [h] using h'
    cases lexemes l.isName rest <;> rfl

theorem lexemes_of_error {afterName : Bool} {c : Char} {cs : List Char} {e : LexFailure}
    (h : lexeme afterName c cs = .error e) : lexemes afterName (c :: cs) = .error e := by
  rw [lexemes]
  split <;> simp_all

theorem IsCut.exists_lexemes {afterName : Bool} {pieces : List (List Char)}
    (h : IsCut afterName pieces) :
    ∃ ls, lexemes afterName pieces.flatten = .ok ls ∧ ls.length = pieces.length := by
  induction pieces generalizing afterName with
  | nil => exact ⟨[], by simp [lexemes], rfl⟩
  | cons piece pieces ih =>
    obtain ⟨c, cs, rfl⟩ := h.exists_cons
    obtain ⟨l, hl, hcut⟩ := isCut_cons.1 h
    obtain ⟨ls, hls, hlen⟩ := ih hcut
    refine ⟨l :: ls, ?_, by simp [hlen]⟩
    rw [List.flatten_cons, List.cons_append, lexemes_of_lexeme hl, hls]
    rfl

/-- A text that the lexer reads is cut into pieces, one for each lexeme. -/
theorem exists_isCut {afterName : Bool} {cs : List Char} {ls : List Lexeme}
    (h : lexemes afterName cs = .ok ls) :
    ∃ pieces, IsCut afterName pieces ∧ pieces.flatten = cs ∧ pieces.length = ls.length := by
  induction ls generalizing afterName cs with
  | nil =>
    rcases cs with _ | ⟨c, cs⟩
    · exact ⟨[], trivial, rfl, rfl⟩
    · rcases hl : lexeme afterName c cs with e | ⟨l, rest⟩
      · rw [lexemes_of_error hl] at h
        cases h
      · rw [lexemes_of_lexeme hl] at h
        obtain ⟨_, _, hcons⟩ := exists_of_map_eq_ok h
        cases hcons
  | cons l ls ih =>
    rcases cs with _ | ⟨c, cs⟩
    · simp [lexemes] at h
    rcases hl : lexeme afterName c cs with e | ⟨l', rest⟩
    · rw [lexemes_of_error hl] at h
      cases h
    rw [lexemes_of_lexeme hl] at h
    obtain ⟨_, hls, hcons⟩ := exists_of_map_eq_ok h
    obtain ⟨rfl, rfl⟩ := List.cons.inj hcons
    obtain ⟨pieces, hcut, rfl, hlen⟩ := ih hls
    obtain ⟨ds, rfl⟩ := isSuffix_lexeme hl
    exact ⟨(c :: ds) :: pieces, isCut_cons.2 ⟨_, hl, hcut⟩, by simp, by simp [hlen]⟩

/-! ## Comments -/

/-- A comment, from the mark that opens it to its end: the end of its line, or the mark that closes
it, before which every comment inside is closed. -/
inductive IsComment : List Char → Prop
  | line (text : List Char) (h : '\n' ∉ text) : IsComment ('-' :: '-' :: (text ++ ['\n']))
  | block (text : List Char) (h : skipComment 0 text = some []) : IsComment ('/' :: '*' :: text)

theorem dropWhile_line {text : List Char} (h : '\n' ∉ text) (after : List Char) :
    (text ++ '\n' :: after).dropWhile (· != '\n') = '\n' :: after := by
  have hline : ∀ c ∈ text, (c != '\n') = true := by
    intro c hc
    have hne : c ≠ '\n' := fun heq => h (heq ▸ hc)
    simpa using hne
  rw [List.dropWhile_append_of_pos hline]
  rfl

theorem IsComment.startsComment {comment : List Char} (h : IsComment comment)
    (after : List Char) : StartsComment (comment ++ after) := by
  cases h with
  | line text => exact .line _
  | block text => exact .block _

theorem IsComment.lexemes_append {comment : List Char} (h : IsComment comment) (afterName : Bool)
    (after : List Char) :
    lexemes afterName (comment ++ after) = (lexemes false after).map (.trivia :: ·) := by
  cases h with
  | line text hline =>
    have hread : lexeme afterName '-' ('-' :: (text ++ '\n' :: after)) = .ok (.trivia, after) := by
      have hskip : skipLine ('-' :: (text ++ '\n' :: after)) = after := by
        simp [skipLine, dropWhile_line hline]
      have hdigit : Text.isDigit '-' = false := by decide
      simp [lexeme, isSpaceChar, readUnquoted, hdigit, hskip]
    simpa [Lexeme.isName] using lexemes_of_lexeme hread
  | block text hblock =>
    have hread : lexeme afterName '/' ('*' :: (text ++ after)) = .ok (.trivia, after) := by
      have hskip : skipComment 0 (text ++ after) = some after := skipComment_append hblock
      have hdigit : Text.isDigit '/' = false := by decide
      simp [lexeme, isSpaceChar, readUnquoted, hdigit, hskip]
    exact lexemes_of_lexeme hread

/-- Only a period before an underscore depends on what stands before it. -/
theorem lexeme_afterName {c : Char} {cs : List Char} (h : ¬ ['.', '_'] <+: c :: cs)
    (afterName : Bool) : lexeme afterName c cs = lexeme false c cs := by
  have hperiod : ¬ (c = '.' ∧ cs.head? = some '_') := by
    rintro ⟨rfl, hhead⟩
    obtain ⟨ds, rfl⟩ := List.head?_eq_some_iff.1 hhead
    exact h (List.prefix_append ['.', '_'] ds)
  simp only [lexeme, readUnquoted, if_neg hperiod]

theorem lexemes_afterName {cs : List Char} (h : ¬ ['.', '_'] <+: cs) (afterName : Bool) :
    lexemes afterName cs = lexemes false cs := by
  rcases cs with _ | ⟨c, cs⟩
  · simp [lexemes]
  have hl := lexeme_afterName h afterName
  rcases hfalse : lexeme false c cs with e | ⟨l, rest⟩
  · rw [lexemes_of_error hfalse, lexemes_of_error (hl.trans hfalse)]
  · rw [lexemes_of_lexeme hfalse, lexemes_of_lexeme (hl.trans hfalse)]

/-! ## A comment between two lexemes -/

/-- A text in pieces, and a comment to be put behind those in `before`.  The last of these must not
take the comment's first character, and a period before an underscore must stand directly behind
a name. -/
structure Insertion where
  before : List (List Char)
  comment : List Char
  after : List (List Char)
  isCut : IsCut false (before ++ after)
  isComment : IsComment comment
  not_absorbs : ∀ piece ∈ before.getLast?, absorbs piece comment = false
  not_period : ¬ ['.', '_'] <+: after.flatten

namespace Insertion

def source (i : Insertion) : String :=
  String.ofList (i.before.flatten ++ i.after.flatten)

def commented (i : Insertion) : String :=
  String.ofList (i.before.flatten ++ (i.comment ++ i.after.flatten))

end Insertion

theorem absorbs_append {piece comment : List Char} (h : IsComment comment) (after : List Char) :
    absorbs piece (comment ++ after) = absorbs piece comment := by
  cases h <;> rfl

theorem lexemes_commented {afterName : Bool} {before after : List (List Char)}
    {comment : List Char} (hcut : IsCut afterName (before ++ after)) (hcomment : IsComment comment)
    (habs : ∀ piece ∈ before.getLast?, absorbs piece comment = false)
    (hperiod : ¬ ['.', '_'] <+: after.flatten) :
    (lexemes afterName (before.flatten ++ (comment ++ after.flatten))).map
        (·.filterMap Lexeme.token?) =
      (lexemes afterName (before.flatten ++ after.flatten)).map (·.filterMap Lexeme.token?) := by
  induction before generalizing afterName with
  | nil =>
    rw [List.flatten_nil, List.nil_append, List.nil_append, hcomment.lexemes_append,
      lexemes_afterName hperiod afterName]
    cases lexemes false after.flatten <;> rfl
  | cons piece before ih =>
    obtain ⟨c, cs, rfl⟩ := hcut.exists_cons
    obtain ⟨l, hl, hrest⟩ := isCut_cons.1 hcut
    have hlast : ∀ last ∈ before.getLast?, absorbs last comment = false := by
      intro last hlast
      refine habs last ?_
      rw [List.getLast?_cons, Option.mem_def.1 hlast]
      rfl
    have habsorbs : before.flatten = [] →
        absorbs (c :: (cs ++ before.flatten)) (comment ++ after.flatten) = false := by
      intro hflat
      obtain rfl : before = [] := by
        rcases before with _ | ⟨piece, _⟩
        · rfl
        · obtain ⟨d, ds, rfl⟩ := hrest.exists_cons
          cases hflat
      rw [absorbs_append hcomment]
      simpa using habs
    have hlong : lexeme afterName c (cs ++ before.flatten ++ (comment ++ after.flatten)) =
        .ok (l, before.flatten ++ (comment ++ after.flatten)) :=
      lexeme_replace (hcomment.startsComment _) habsorbs (by simpa using hl)
    have hshort : lexeme afterName c (cs ++ before.flatten ++ after.flatten) =
        .ok (l, before.flatten ++ after.flatten) := by simpa using hl
    have hnext := ih hrest hlast
    simp only [List.flatten_cons, List.cons_append]
    rw [lexemes_of_lexeme hlong, lexemes_of_lexeme hshort]
    generalize lexemes l.isName (before.flatten ++ (comment ++ after.flatten)) = long at hnext ⊢
    generalize lexemes l.isName (before.flatten ++ after.flatten) = short at hnext ⊢
    rcases long with e | ls <;> rcases short with e' | ls' <;>
      simp_all [Except.map, List.filterMap_cons]

theorem Insertion.exists_tokenize (i : Insertion) : ∃ tokens, tokenize i.source = .ok tokens := by
  obtain ⟨ls, hls, -⟩ := i.isCut.exists_lexemes
  rw [List.flatten_append] at hls
  exact ⟨joinSigils (ls.filterMap Lexeme.token?), by simp [tokenize, source, hls]⟩

/-- A comment between two lexemes leaves no token and changes none. -/
theorem Insertion.tokenize_commented (i : Insertion) :
    tokenize i.commented = tokenize i.source := by
  have h := lexemes_commented i.isCut i.isComment i.not_absorbs i.not_period
  obtain ⟨ls, hls, -⟩ := i.isCut.exists_lexemes
  rw [List.flatten_append] at hls
  rw [hls] at h
  obtain ⟨ls', hls', htokens⟩ := exists_of_map_eq_ok h
  simp only [tokenize, source, commented, String.toList_ofList, hls, hls', htokens]

end SqlSnapshot.Token
