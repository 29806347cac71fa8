import SqlSnapshot.Proofs.Filter.Globs

/-!
# Globs as regular expressions

A token with wildcards is a regular expression in disguise: `*` is `.*`, `?` is `.`, every other
character is escaped if it is special, and anchors stand at both ends.  A search for that expression
without regard to case finds something exactly in the texts that the glob matches.

Of the syntax and the meaning of regular expressions this needs anchors, the dot and its repetition,
and single characters, escaped or not.
-/

namespace SqlSnapshot.Regex

/-! ## Regular expressions -/

/-- What stands for one character. -/
inductive Atom where
  | dot
  | char (c : Char)
deriving DecidableEq, Repr

/-- Without regard to case; the dot leaves out line feeds. -/
def Atom.accepts : Atom → Char → Bool
  | .dot, c => c != '\n'
  | .char d, c => Text.sameFold d c

inductive Item where
  | startAnchor
  | endAnchor
  | once (a : Atom)
  | repeated (a : Atom)
deriving DecidableEq, Repr

/-- The characters that are escaped to stand for themselves. -/
def metaCharacters : List Char :=
  ['\\', '.', '+', '*', '?', '(', ')', '|', '[', ']', '\x7b', '\x7d', '^', '$', '#', '&', '-', '~']

/-- The special characters that have a meaning of their own wherever they stand. -/
def operators : List Char :=
  ['\\', '+', '*', '?', '(', ')', '|', '[', ']', '\x7b', '\x7d']

/-- Reads a regular expression; none if it has anything but anchors, dots and characters. -/
def read? : List Char → Option (List Item)
  | [] => some []
  | '^' :: cs => (read? cs).map (.startAnchor :: ·)
  | '$' :: cs => (read? cs).map (.endAnchor :: ·)
  | '.' :: '*' :: cs => (read? cs).map (.repeated .dot :: ·)
  | '.' :: cs => (read? cs).map (.once .dot :: ·)
  | '\\' :: c :: cs =>
    if c ∈ metaCharacters then (read? cs).map (.once (.char c) :: ·) else none
  | c :: cs => if c ∈ operators then none else (read? cs).map (.once (.char c) :: ·)

/-- The items match from the place between the two parts of a text on. -/
def MatchesAt : List Item → (before rest : List Char) → Prop
  | [], _, _ => True
  | .startAnchor :: items, before, rest => before = [] ∧ MatchesAt items before rest
  | .endAnchor :: items, before, rest => rest = [] ∧ MatchesAt items before rest
  | .once a :: items, before, rest =>
    ∃ c rest', rest = c :: rest' ∧ a.accepts c = true ∧ MatchesAt items (before ++ [c]) rest'
  | .repeated a :: items, before, rest =>
    ∃ run rest', rest = run ++ rest' ∧ (∀ c ∈ run, a.accepts c = true) ∧
      MatchesAt items (before ++ run) rest'

/-- A search through the text finds a match somewhere. -/
def Finds (regex text : List Char) : Prop :=
  ∃ items, read? regex = some items ∧
    ∃ before rest, text = before ++ rest ∧ MatchesAt items before rest

/-! ## The expression of a token -/

def ofTokenChar : Char → List Char
  | '*' => ['.', '*']
  | '?' => ['.']
  | '[' => []
  | ']' => []
  | c => if c ∈ metaCharacters then ['\\', c] else [c]

def ofToken (token : List Char) : List Char :=
  '^' :: (token.flatMap ofTokenChar ++ ['$'])

def Item.ofPart : GlobPart → Item
  | .anything => .repeated .dot
  | .anyChar => .once .dot
  | .char c => .once (.char c)

theorem ofTokenChar_bracket
    {c : Char} (hc : c = '[' ∨ c = ']') :
    ofTokenChar c = [] := by
  rcases hc with rfl | rfl <;> rfl

theorem ofTokenChar_literal
    {c : Char} (h : Glob.IsLiteral c) :
    ofTokenChar c = if c ∈ metaCharacters then ['\\', c] else [c] := by
  unfold ofTokenChar
  split
  · exact absurd rfl h.ne_star
  · exact absurd rfl h.ne_mark
  · exact absurd (.inl rfl) h.not_bracket
  · exact absurd (.inr rfl) h.not_bracket
  · rfl

theorem read?_dot
    {cs : List Char} (h : ∀ rest, cs ≠ '*' :: rest) :
    read? ('.' :: cs) = (read? cs).map (.once .dot :: ·) := by
  rw [read?]
  exact fun rest heq => h rest heq

theorem read?_escaped
    {c : Char} (hc : c ∈ metaCharacters) (cs : List Char) :
    read? ('\\' :: c :: cs) = (read? cs).map (.once (.char c) :: ·) := by
  rw [read?, if_pos hc]

theorem read?_char
    {c : Char} (hc : c ∉ metaCharacters) (cs : List Char) :
    read? (c :: cs) = (read? cs).map (.once (.char c) :: ·) := by
  have hoperators : operators ⊆ metaCharacters := by decide
  have hoperator : c ∉ operators := fun h => hc (hoperators h)
  rw [read?, if_neg hoperator]
  all_goals
    intros
    subst_vars
    exact hc (by decide)

/-- Behind a dot that stands for `?` there is no star. -/
theorem ne_star_of_token (token rest : List Char) :
    token.flatMap ofTokenChar ++ ['$'] ≠ '*' :: rest := by
  induction token with
  | nil => simp
  | cons c token ih =>
    rw [List.flatMap_cons, List.append_assoc]
    rcases Glob.char_cases c with hbracket | rfl | rfl | hliteral
    · rw [ofTokenChar_bracket hbracket]
      exact ih
    · simp [ofTokenChar]
    · simp [ofTokenChar]
    · rw [ofTokenChar_literal hliteral]
      split
      · simp
      · intro heq
        exact hliteral.ne_star (List.cons.inj heq).1

theorem read?_token (token : List Char) :
    read? (token.flatMap ofTokenChar ++ ['$']) =
      some ((Glob.ofText token).map Item.ofPart ++ [.endAnchor]) := by
  induction token with
  | nil => rfl
  | cons c token ih =>
    rw [List.flatMap_cons, List.append_assoc]
    rcases Glob.char_cases c with hbracket | rfl | rfl | hliteral
    · rw [ofTokenChar_bracket hbracket, Glob.ofText_bracket hbracket]
      exact ih
    · have hdots : ofTokenChar '*' = ['.', '*'] := rfl
      rw [hdots, List.cons_append, List.cons_append, List.nil_append, read?, ih, Glob.ofText_star]
      rfl
    · have hdot : ofTokenChar '?' = ['.'] := rfl
      rw [hdot, List.cons_append, List.nil_append, read?_dot (ne_star_of_token token), ih,
        Glob.ofText_mark]
      rfl
    · rw [ofTokenChar_literal hliteral, hliteral.ofText_eq]
      by_cases hmeta : c ∈ metaCharacters
      · rw [if_pos hmeta, List.cons_append, List.cons_append, List.nil_append,
          read?_escaped hmeta, ih]
        rfl
      · rw [if_neg hmeta, List.cons_append, List.nil_append, read?_char hmeta, ih]
        rfl

theorem read?_ofToken (token : List Char) :
    read? (ofToken token) =
      some (.startAnchor :: ((Glob.ofText token).map Item.ofPart ++ [.endAnchor])) := by
  rw [ofToken, read?, read?_token]
  rfl

/-! ## The search -/

theorem matchesAt_parts_iff
    {g : Glob} {before rest : List Char} :
    MatchesAt (g.map Item.ofPart ++ [.endAnchor]) before rest ↔ g.Matches rest := by
  induction g generalizing before rest with
  | nil => simp [MatchesAt, Glob.matches_nil_iff]
  | cons part parts ih =>
    cases part with
    | anything =>
      rw [Glob.matches_anything_iff, List.map_cons, List.cons_append, Item.ofPart, MatchesAt]
      simp only [ih, Atom.accepts, bne_iff_ne]
    | anyChar =>
      rw [Glob.matches_one_iff (by decide), List.map_cons, List.cons_append, Item.ofPart, MatchesAt]
      simp only [ih, Atom.accepts, GlobPart.accepts]
    | char c =>
      rw [Glob.matches_one_iff (by simp), List.map_cons, List.cons_append, Item.ofPart, MatchesAt]
      simp only [ih, Atom.accepts, GlobPart.accepts]

/-- The anchors force the match along the whole text, and what is escaped is read back. -/
theorem finds_ofToken_iff (token text : List Char) :
    Finds (ofToken token) text ↔ (Glob.ofText token).Matches text := by
  rw [Finds, read?_ofToken]
  constructor
  · rintro ⟨_, ⟨⟩, before, rest, rfl, rfl, hmatches⟩
    exact matchesAt_parts_iff.mp hmatches
  · intro h
    exact ⟨_, rfl, [], text, rfl, rfl, matchesAt_parts_iff.mpr h⟩

end SqlSnapshot.Regex
