import SqlSnapshot.Filter.Glob
import SqlSnapshot.Proofs.Text.LatinCase
import SqlSnapshot.Proofs.Text.NameChars

/-!
# What a glob matches

A glob matches a text if its parts can be laid along the whole of it.  Among ASCII texts without
line feeds these are the ones that come from the glob by putting some text for each `*` and a
character for each `?`, up to the case of letters.
-/

namespace SqlSnapshot

/-- The parts of the glob lie along the whole text, `*` on any number of characters. -/
inductive Glob.Matches : Glob → List Char → Prop where
  | nil : Matches [] []
  | one {part : GlobPart} {parts : Glob} {c : Char} {cs : List Char} (hpart : part ≠ .anything)
      (hc : part.accepts c = true) (hrest : Matches parts cs) : Matches (part :: parts) (c :: cs)
  | leave {parts : Glob} {cs : List Char} (hrest : Matches parts cs) :
      Matches (.anything :: parts) cs
  | stay {parts : Glob} {c : Char} {cs : List Char} (hc : GlobPart.anything.accepts c = true)
      (hrest : Matches (.anything :: parts) cs) : Matches (.anything :: parts) (c :: cs)

namespace Glob

variable {part : GlobPart} {parts g : Glob} {c : Char} {cs : List Char}

theorem matches_nil_iff :
    Matches [] cs ↔ cs = [] := by
  constructor
  · rintro ⟨⟩
    rfl
  · rintro rfl
    exact .nil

theorem matches_one_iff
    (hpart : part ≠ .anything) :
    Matches (part :: parts) cs ↔
      ∃ c rest, cs = c :: rest ∧ part.accepts c = true ∧ Matches parts rest := by
  constructor
  · intro h
    cases h with
    | one _ hc hrest => exact ⟨_, _, rfl, hc, hrest⟩
    | leave _ => exact absurd rfl hpart
    | stay _ _ => exact absurd rfl hpart
  · rintro ⟨c, rest, rfl, hc, hrest⟩
    exact .one hpart hc hrest

theorem matches_anything_iff :
    Matches (.anything :: parts) cs ↔
      ∃ before rest, cs = before ++ rest ∧ (∀ c ∈ before, c ≠ '\n') ∧ Matches parts rest := by
  constructor
  · intro h
    generalize hg : GlobPart.anything :: parts = g at h
    induction h with
    | nil => cases hg
    | one hpart _ _ =>
      cases hg
      exact absurd rfl hpart
    | leave hrest =>
      cases hg
      exact ⟨[], _, rfl, by simp, hrest⟩
    | stay hc _ ih =>
      obtain ⟨before, rest, rfl, hbefore, hrest⟩ := ih hg
      cases hg
      refine ⟨_ :: before, rest, rfl, List.forall_mem_cons.mpr ⟨?_, hbefore⟩, hrest⟩
      simpa [GlobPart.accepts] using hc
  · rintro ⟨before, rest, rfl, hbefore, hrest⟩
    induction before with
    | nil => exact .leave hrest
    | cons c before ih =>
      obtain ⟨hc, hothers⟩ := List.forall_mem_cons.mp hbefore
      exact .stay (by simpa [GlobPart.accepts] using hc) (ih hothers)

theorem matches_anything_cons_iff :
    Matches (.anything :: parts) (c :: cs) ↔ Matches parts (c :: cs) ∨
      (GlobPart.anything.accepts c = true ∧ Matches (.anything :: parts) cs) := by
  constructor
  · intro h
    cases h with
    | one hpart _ _ => exact absurd rfl hpart
    | leave hrest => exact .inl hrest
    | stay hc hrest => exact .inr ⟨hc, hrest⟩
  · rintro (hrest | ⟨hc, hrest⟩)
    · exact .leave hrest
    · exact .stay hc hrest

/-! ## The table of suffixes -/

/-- The list says of every suffix of the text whether the glob matches it, the longest first. -/
inductive Tells (g : Glob) : List Char → List Bool → Prop where
  | nil {r : Bool} (hr : r = true ↔ g.Matches []) : Tells g [] [r]
  | cons {c : Char} {cs : List Char} {r : Bool} {rs : List Bool}
      (hr : r = true ↔ g.Matches (c :: cs)) (hrest : Tells g cs rs) : Tells g (c :: cs) (r :: rs)

theorem Tells.headD_iff
    {rs : List Bool} (h : g.Tells cs rs) :
    rs.headD false = true ↔ g.Matches cs := by
  cases h with
  | nil hr => exact hr
  | cons hr _ => exact hr

theorem Tells.extend
    {rs : List Bool} (h : parts.Tells cs rs) (part : GlobPart) :
    Tells (part :: parts) cs (extend part cs rs) := by
  induction h with
  | nil hr =>
    by_cases hpart : part = .anything
    · subst hpart
      refine .nil (hr.trans ⟨.leave, fun h => ?_⟩)
      cases h with
      | leave hrest => exact hrest
    · rw [Glob.extend, if_neg hpart]
      refine .nil ⟨by simp, fun h => ?_⟩
      obtain ⟨_, _, hcs, -⟩ := (matches_one_iff hpart).mp h
      cases hcs
  | @cons c cs r rs hr hrest ih =>
    refine .cons ?_ ih
    by_cases hpart : part = .anything
    · subst hpart
      rw [if_pos rfl, Bool.or_eq_true, Bool.and_eq_true, hr, ih.headD_iff,
        matches_anything_cons_iff]
    · rw [if_neg hpart, Bool.and_eq_true, hrest.headD_iff, matches_one_iff hpart]
      constructor
      · rintro ⟨hc, hrest⟩
        exact ⟨c, cs, rfl, hc, hrest⟩
      · rintro ⟨_, _, ⟨⟩, hc, hrest⟩
        exact ⟨hc, hrest⟩

theorem tells_suffixMatches (cs : List Char) (g : Glob) :
    g.Tells cs (suffixMatches cs g) := by
  induction g with
  | nil =>
    rw [suffixMatches]
    induction cs with
    | nil => exact .nil (by simp [matches_nil_iff])
    | cons c cs ih => exact .cons (by simp [matches_nil_iff]) ih
  | cons part parts ih => exact ih.extend part

/-- The table finds what the parts can be laid along. -/
theorem accepts_iff_matches (g : Glob) (text : String) :
    g.accepts text = true ↔ g.Matches text.toList :=
  (tells_suffixMatches text.toList g).headD_iff

/-! ## Texts that a token stands for -/

/-- The text comes from the token with some text for each `*` and a character for each `?`. -/
def Expands : (token text : List Char) → Prop
  | [], text => text = []
  | '*' :: token, text => ∃ inserted rest, text = inserted ++ rest ∧ Expands token rest
  | '?' :: token, text => ∃ c rest, text = c :: rest ∧ Expands token rest
  | c :: token, text => ∃ rest, text = c :: rest ∧ Expands token rest

/-- A character of a token that stands for itself. -/
structure IsLiteral (c : Char) : Prop where
  ne_star : c ≠ '*'
  ne_mark : c ≠ '?'
  not_bracket : ¬ (c = '[' ∨ c = ']')

theorem char_cases (c : Char) :
    (c = '[' ∨ c = ']') ∨ c = '*' ∨ c = '?' ∨ IsLiteral c := by
  by_cases hbracket : c = '[' ∨ c = ']'
  · exact .inl hbracket
  · by_cases hstar : c = '*'
    · exact .inr (.inl hstar)
    · by_cases hmark : c = '?'
      · exact .inr (.inr (.inl hmark))
      · exact .inr (.inr (.inr ⟨hstar, hmark, hbracket⟩))

theorem IsLiteral.expands_iff
    {token text : List Char} (h : IsLiteral c) :
    Expands (c :: token) text ↔ ∃ rest, text = c :: rest ∧ Expands token rest := by
  rw [Expands]
  · exact fun heq => h.ne_star heq
  · exact fun heq => h.ne_mark heq

/-- The text comes from the token up to the case of Latin letters. -/
def Spells (token text : List Char) : Prop :=
  ∃ s, Expands token s ∧ s.map Char.toLower = text.map Char.toLower

theorem spells_nil_iff
    {text : List Char} :
    Spells [] text ↔ text = [] := by
  simp [Spells, Expands, eq_comm]

theorem spells_star_iff
    {token text : List Char} :
    Spells ('*' :: token) text ↔
      ∃ before rest, text = before ++ rest ∧ Spells token rest := by
  constructor
  · rintro ⟨_, ⟨inserted, s, rfl, hs⟩, hlower⟩
    rw [List.map_append, eq_comm, List.map_eq_append_iff] at hlower
    obtain ⟨before, rest, rfl, -, hrest⟩ := hlower
    exact ⟨before, rest, rfl, s, hs, hrest.symm⟩
  · rintro ⟨before, rest, rfl, s, hs, hlower⟩
    exact ⟨before ++ s, ⟨before, s, rfl, hs⟩, by rw [List.map_append, List.map_append, hlower]⟩

theorem spells_mark_iff
    {token text : List Char} :
    Spells ('?' :: token) text ↔ ∃ d rest, text = d :: rest ∧ Spells token rest := by
  constructor
  · rintro ⟨_, ⟨c, s, rfl, hs⟩, hlower⟩
    rw [List.map_cons, eq_comm, List.map_eq_cons_iff] at hlower
    obtain ⟨d, rest, rfl, -, hrest⟩ := hlower
    exact ⟨d, rest, rfl, s, hs, hrest.symm⟩
  · rintro ⟨d, rest, rfl, s, hs, hlower⟩
    exact ⟨d :: s, ⟨d, s, rfl, hs⟩, by rw [List.map_cons, List.map_cons, hlower]⟩

theorem IsLiteral.spells_iff
    {token text : List Char} (h : IsLiteral c) :
    Spells (c :: token) text ↔
      ∃ d rest, text = d :: rest ∧ c.toLower = d.toLower ∧ Spells token rest := by
  simp only [Spells, h.expands_iff]
  constructor
  · rintro ⟨_, ⟨s, rfl, hs⟩, hlower⟩
    rw [List.map_cons, eq_comm, List.map_eq_cons_iff] at hlower
    obtain ⟨d, rest, rfl, hd, hrest⟩ := hlower
    exact ⟨d, rest, rfl, hd.symm, s, hs, hrest.symm⟩
  · rintro ⟨d, rest, rfl, hd, s, hs, hlower⟩
    exact ⟨c :: s, ⟨s, rfl, hs⟩, by rw [List.map_cons, List.map_cons, hd, hlower]⟩

/-- A token without its square brackets. -/
def unbracketed (token : List Char) : List Char :=
  token.filter fun c => c != '[' && c != ']'

theorem unbracketed_bracket
    {token : List Char} (hc : c = '[' ∨ c = ']') :
    unbracketed (c :: token) = unbracketed token := by
  rcases hc with rfl | rfl <;> rfl

theorem unbracketed_cons
    (hc : ¬ (c = '[' ∨ c = ']')) (token : List Char) :
    unbracketed (c :: token) = c :: unbracketed token :=
  List.filter_cons_of_pos (by simpa using hc)

theorem ofText_bracket
    {token : List Char} (hc : c = '[' ∨ c = ']') :
    ofText (c :: token) = ofText token := by
  rcases hc with rfl | rfl <;> rfl

theorem ofText_star (token : List Char) : ofText ('*' :: token) = .anything :: ofText token := rfl

theorem ofText_mark (token : List Char) : ofText ('?' :: token) = .anyChar :: ofText token := rfl

theorem IsLiteral.ofText_eq
    (h : IsLiteral c) (token : List Char) :
    ofText (c :: token) = .char c :: ofText token := by
  have hpart : GlobPart.ofChar? c = some (.char c) := by
    unfold GlobPart.ofChar?
    split
    · exact absurd rfl h.ne_star
    · exact absurd rfl h.ne_mark
    · exact absurd (.inl rfl) h.not_bracket
    · exact absurd (.inr rfl) h.not_bracket
    · rfl
  rw [ofText, List.filterMap_cons_some hpart]
  rfl

end Glob

namespace Glob

/-- The characters are ASCII and no line feeds. -/
def IsAsciiLine (text : List Char) : Prop :=
  ∀ c ∈ text, c.toNat < 128 ∧ c ≠ '\n'

theorem IsAsciiLine.of_append
    {before rest : List Char} (h : IsAsciiLine (before ++ rest)) :
    IsAsciiLine before ∧ IsAsciiLine rest :=
  List.forall_mem_append.mp h

/-- An ASCII text is matched if it comes from the token without its brackets. -/
theorem matches_ofText_iff
    {token text : List Char} (htoken : ∀ c ∈ token, c.toNat < 128) (htext : IsAsciiLine text) :
    Matches (ofText token) text ↔ Spells (unbracketed token) text := by
  induction token generalizing text with
  | nil => exact matches_nil_iff.trans spells_nil_iff.symm
  | cons c token ih =>
    obtain ⟨hc, hothers⟩ := List.forall_mem_cons.mp htoken
    rcases char_cases c with hbracket | rfl | rfl | hliteral
    · rw [ofText_bracket hbracket, unbracketed_bracket hbracket]
      exact ih hothers htext
    · rw [ofText_star, matches_anything_iff, unbracketed_cons (by decide), spells_star_iff]
      refine exists₂_congr fun before rest => and_congr_right ?_
      rintro rfl
      obtain ⟨hbefore, hrest⟩ := htext.of_append
      rw [ih hothers hrest]
      exact and_iff_right fun d hd => (hbefore d hd).2
    · rw [ofText_mark, matches_one_iff (by decide), unbracketed_cons (by decide), spells_mark_iff]
      refine exists₂_congr fun d rest => and_congr_right ?_
      rintro rfl
      obtain ⟨hd, hrest⟩ := List.forall_mem_cons.mp htext
      rw [ih hothers hrest]
      exact and_iff_right (bne_iff_ne.mpr hd.2)
    · rw [hliteral.ofText_eq, matches_one_iff (by simp), unbracketed_cons hliteral.not_bracket,
        hliteral.spells_iff]
      refine exists₂_congr fun d rest => and_congr_right ?_
      rintro rfl
      obtain ⟨hd, hrest⟩ := List.forall_mem_cons.mp htext
      rw [ih hothers hrest]
      exact and_congr_left' (Text.sameFold_iff_of_ascii hc hd.1)

end Glob

end SqlSnapshot
