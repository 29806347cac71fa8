import SqlSnapshot.Proofs.Filter.GlobRegex
import SqlSnapshot.Proofs.Filter.Names

/-!
# Tokens with wildcards

A token with wildcards is compared with the name of a procedure, and with its schema too if a dot
stands outside of the brackets of the token.  Where all is ASCII it means what it says.
-/

namespace SqlSnapshot

/-! ## Dots outside of brackets -/

namespace Descriptor

def bracketStep (depth : Nat) (c : Char) : Nat :=
  if c = '[' then depth + 1 else if c = ']' then depth - 1 else depth

/-- How many brackets are open behind the characters. -/
def bracketDepth (cs : List Char) : Nat :=
  cs.foldl bracketStep 0

/-- A dot stands where no bracket is open. -/
def HasOpenDot (cs : List Char) : Prop :=
  ∃ n < cs.length, cs[n]? = some '.' ∧ bracketDepth (cs.take n) = 0

instance (cs : List Char) : Decidable (HasOpenDot cs) :=
  Nat.decidableExistsLT cs.length

theorem splitQualified?_isSome_iff
    {cs : List Char} {depth : Nat} :
    (splitQualified? depth cs).isSome = true ↔
      ∃ n < cs.length, cs[n]? = some '.' ∧ (cs.take n).foldl bracketStep depth = 0 := by
  induction cs generalizing depth with
  | nil => simp [splitQualified?]
  | cons c cs ih =>
    have hstep : ∀ n, ((c :: cs).take (n + 1)).foldl bracketStep depth =
        (cs.take n).foldl bracketStep (bracketStep depth c) := fun _ => rfl
    rw [List.length_cons, Nat.exists_lt_succ_left, splitQualified?]
    by_cases hdot : c = '.' ∧ depth = 0
    · rw [if_pos hdot]
      exact iff_of_true rfl (.inl ⟨by rw [hdot.1]; rfl, hdot.2⟩)
    · rw [if_neg hdot]
      have hfirst : ¬ ((c :: cs)[0]? = some '.' ∧
          ((c :: cs).take 0).foldl bracketStep depth = 0) := by
        simpa using hdot
      rw [or_iff_right hfirst]
      simp only [hstep, List.getElem?_cons_succ, Option.isSome_map]
      exact ih

theorem parseQualified?_isSome_iff
    {token : List Char} (h : Text.IsTrimmed token) :
    (parseQualified? (String.ofList token)).isSome = true ↔ HasOpenDot token := by
  rw [parseQualified?, String.toList_ofList, h.trimBoth_eq, Option.isSome_map]
  exact splitQualified?_isSome_iff

end Descriptor

/-! ## Tokens -/

theorem Text.not_of_mem_splitBy
    {p : Char → Bool} {cs piece : List Char} (h : piece ∈ Text.splitBy p cs) :
    ∀ c ∈ piece, p c = false := by
  induction cs generalizing piece with
  | nil =>
    rw [Text.splitBy, List.mem_singleton] at h
    simp [h]
  | cons c cs ih =>
    rw [Text.splitBy] at h
    split at h
    · rcases List.mem_cons.mp h with rfl | h
      · simp
      · exact ih h
    · rename_i hc
      have hc' : p c = false := by simpa using hc
      split at h
      · rw [List.mem_singleton] at h
        simpa [h] using hc'
      · rename_i first others hsplit
        rcases List.mem_cons.mp h with rfl | h
        · exact List.forall_mem_cons.mpr ⟨hc', ih (hsplit ▸ List.mem_cons_self)⟩
        · exact ih (hsplit ▸ List.mem_cons_of_mem _ h)

theorem NameFilter.isTrimmed_of_mem_tokens
    {text : String} {token : List Char} (h : token ∈ NameFilter.tokens text) :
    Text.IsTrimmed token := by
  have hblank : ∀ c ∈ token, Text.isBlank c = false := by
    intro c hc
    have hc' := Text.not_of_mem_splitBy (List.mem_filter.mp h).1 c hc
    exact (Bool.or_eq_false_iff.mp hc').2
  exact Text.isTrimmed_of_forall hblank

namespace NamePattern

/-- What a token is compared with. -/
def subject (token : List Char) (d : Descriptor) : String :=
  if Descriptor.HasOpenDot token then d.display else d.name

theorem isAsciiLine_subject
    {d : Descriptor} (hschema : Glob.IsAsciiLine d.schema.toList)
    (hname : Glob.IsAsciiLine d.name.toList) (token : List Char) :
    Glob.IsAsciiLine (subject token d).toList := by
  rw [subject]
  split
  · rw [Descriptor.display, String.toList_append, String.toList_append]
    have hdot : Glob.IsAsciiLine ".".toList := by
      intro c hc
      rw [List.mem_singleton.mp hc]
      decide
    exact List.forall_mem_append.mpr ⟨List.forall_mem_append.mpr ⟨hschema, hdot⟩, hname⟩
  · exact hname

theorem ofToken?_of_wildcard
    {token : List Char} (hwildcard : ∃ c ∈ token, c = '*' ∨ c = '?')
    (hfits : (Glob.ofText token).fits = true) :
    ofToken? token = some (.glob (Glob.ofText token)
      (Descriptor.parseQualified? (String.ofList token)).isSome) := by
  have hany : (token.any fun c => c == '*' || c == '?') = true := by
    simpa [List.any_eq_true] using hwildcard
  rw [ofToken?, if_pos hany]
  dsimp only
  rw [if_pos hfits]

theorem accepts_glob
    {token : List Char} (htrimmed : Text.IsTrimmed token) (g : Glob) (d : Descriptor) :
    (glob g (Descriptor.parseQualified? (String.ofList token)).isSome).accepts d =
      g.accepts (subject token d) := by
  rw [subject]
  split
  · rename_i hdot
    rw [(Descriptor.parseQualified?_isSome_iff htrimmed).mpr hdot]
    rfl
  · rename_i hdot
    rw [Bool.eq_false_iff.mpr fun h => hdot ((Descriptor.parseQualified?_isSome_iff htrimmed).mp h)]
    rfl

/-- A token with wildcards accepts the procedures in which a search for its regular expression finds
something.  Among ASCII procedures without line feeds these are the ones that come from the token
without its brackets, with some text for each `*` and a character for each `?`, up to the case of
letters. -/
theorem wildcard_accepts_iff {text : String} {token : List Char}
    (htoken : token ∈ NameFilter.tokens text) (hascii : ∀ c ∈ token, c.toNat < 128)
    (hwildcard : ∃ c ∈ token, c = '*' ∨ c = '?') (hfits : (Glob.ofText token).fits = true) :
    ∃ p, ofToken? token = some p ∧ ∀ d : Descriptor,
      (p.accepts d = true ↔ Regex.Finds (Regex.ofToken token) (subject token d).toList) ∧
      (Glob.IsAsciiLine d.schema.toList → Glob.IsAsciiLine d.name.toList →
        (p.accepts d = true ↔
          Glob.Spells (Glob.unbracketed token) (subject token d).toList)) := by
  refine ⟨_, ofToken?_of_wildcard hwildcard hfits, fun d => ?_⟩
  have hmatches := Glob.accepts_iff_matches (Glob.ofText token) (subject token d)
  rw [accepts_glob (NameFilter.isTrimmed_of_mem_tokens htoken), hmatches]
  refine ⟨(Regex.finds_ofToken_iff token _).symm, fun hschema hname => ?_⟩
  exact Glob.matches_ofText_iff hascii (isAsciiLine_subject hschema hname token)

/-- The dot behind the schema and the dollar sign stand for themselves. -/
theorem wildcard_accepts_iff_sample :
    "[hr].$*?".toList ∈ NameFilter.tokens "Users; [hr].$*?" ∧
    (∀ c ∈ "[hr].$*?".toList, c.toNat < 128) ∧
    (∃ c ∈ "[hr].$*?".toList, c = '*' ∨ c = '?') ∧
    (Glob.ofText "[hr].$*?".toList).fits = true ∧
    ∃ p, ofToken? "[hr].$*?".toList = some p ∧ p.accepts ⟨"HR", "$Pay"⟩ = true := by
  have htoken : "[hr].$*?".toList ∈ NameFilter.tokens "Users; [hr].$*?" := by decide +kernel
  have hascii : ∀ c ∈ "[hr].$*?".toList, c.toNat < 128 := Text.forall_mem_of_all (by decide)
  have hwildcard : ∃ c ∈ "[hr].$*?".toList, c = '*' ∨ c = '?' := ⟨'*', by decide, .inl rfl⟩
  have hfits : (Glob.ofText "[hr].$*?".toList).fits = true := by decide +kernel
  obtain ⟨p, hp, haccepts⟩ := wildcard_accepts_iff htoken hascii hwildcard hfits
  refine ⟨htoken, hascii, hwildcard, hfits, p, hp, ?_⟩
  have hexpands : Glob.Expands "hr.$*?".toList "hr.$Pay".toList :=
    ⟨_, rfl, _, rfl, _, rfl, _, rfl, "Pa".toList, _, rfl, 'y', [], rfl, rfl⟩
  apply ((haccepts ⟨"HR", "$Pay"⟩).2 (Text.forall_mem_of_all (by decide))
    (Text.forall_mem_of_all (by decide))).mpr
  exact ⟨"hr.$Pay".toList, hexpands, by decide +kernel⟩

end NamePattern

end SqlSnapshot
