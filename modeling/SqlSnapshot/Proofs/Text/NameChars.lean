import SqlSnapshot.Text.Fold
import SqlSnapshot.Token.Lexer
import SqlSnapshot.Text.WordChar

/-!
# Characters of names

The tables that classify characters agree on those that a plain name is made of, and on the blanks
that stand between names.
-/

namespace SqlSnapshot.Text

/-! ## Checks along a range -/

/-- What holds of every ASCII character is checked one by one. -/
theorem forall_ascii
    {p : Char → Bool} (h : (List.range 128).all (fun n => p (Char.ofNat n)) = true)
    {c : Char} (hc : c.toNat < 128) :
    p c = true := by
  have hchecked := List.all_eq_true.mp h c.toNat (List.mem_range.mpr hc)
  rwa [Char.ofNat_toNat] at hchecked

/-- The numbers in the ranges with the given bounds. -/
def codes : List Nat → List Nat
  | lo :: hi :: rest => List.range' lo (hi - lo) ++ codes rest
  | _ => []

theorem mem_codes
    {bounds : List Nat} {n : Nat} (heven : bounds.length % 2 = 0) (h : inRanges bounds n = true) :
    n ∈ codes bounds := by
  fun_induction inRanges bounds n with
  | case1 => cases h
  | case2 lo hi rest n hlo hhi =>
    rw [codes, List.mem_append, List.mem_range'_1]
    omega
  | case3 lo hi rest n hlo hhi ih =>
    have hrest : rest.length % 2 = 0 := by
      simp only [List.length_cons] at heven
      omega
    rw [codes, List.mem_append]
    exact .inr (ih hrest h)
  | case4 => simp at heven
  | case5 => cases h

/-- What holds of every blank is checked one by one. -/
theorem forall_blank
    {p : Char → Bool} (h : (codes blankBounds).all (fun n => p (Char.ofNat n)) = true)
    {c : Char} (hc : isBlank c = true) :
    p c = true := by
  have hchecked := List.all_eq_true.mp h c.toNat (mem_codes rfl hc)
  rwa [Char.ofNat_toNat] at hchecked

/-! ## Case folding of ASCII characters -/

theorem foldChar_of_ascii
    {c : Char} (hc : c.toNat < 128) :
    foldChar c = c.toLower.toNat := by
  have hall : ∀ n < 128, foldChar (Char.ofNat n) = (Char.ofNat n).toLower.toNat := by
    decide +kernel
  rw [← Char.ofNat_toNat c]
  exact hall _ hc

theorem sameFold_iff_of_ascii
    {c d : Char} (hc : c.toNat < 128) (hd : d.toNat < 128) :
    sameFold c d = true ↔ c.toLower = d.toLower := by
  rw [sameFold, beq_iff_eq, foldChar_of_ascii hc, foldChar_of_ascii hd, Char.toNat_inj]

/-! ## Identifiers -/

def startsIdentifier (c : Char) : Bool :=
  c.isAlpha || c == '_'

def isIdentifierChar (c : Char) : Bool :=
  c.isAlphanum || c == '_'

/-- Latin letters, digits and underscores, of which the first is no digit. -/
def IsIdentifier : List Char → Prop
  | [] => False
  | c :: cs => startsIdentifier c = true ∧ ∀ d ∈ cs, isIdentifierChar d = true

theorem ascii_of_le
    {c last : Char} (h : c.val ≤ last.val) (hlast : last.toNat < 128) :
    c.toNat < 128 :=
  Nat.lt_of_le_of_lt (UInt32.le_iff_toNat_le.mp h) hlast

theorem ascii_of_isIdentifierChar
    {c : Char} (h : isIdentifierChar c = true) :
    c.toNat < 128 := by
  simp only [isIdentifierChar, Char.isAlphanum, Bool.or_eq_true, beq_iff_eq] at h
  rcases h with (halpha | hdigit) | rfl
  · rcases Bool.or_eq_true_iff.mp halpha with hupper | hlower
    · have hle : c.val ≤ 'Z'.val := (of_decide_eq_true hupper).2
      exact ascii_of_le hle (by decide)
    · have hle : c.val ≤ 'z'.val := of_decide_eq_true (Bool.and_eq_true_iff.mp hlower).2
      exact ascii_of_le hle (by decide)
  · have hle : c.val ≤ '9'.val := of_decide_eq_true (Bool.and_eq_true_iff.mp hdigit).2
    exact ascii_of_le hle (by decide)
  · decide

/-- The lexer and the searches take the character for a part of a name. -/
structure IsNameOnly (c : Char) : Prop where
  isNamePart : Token.isNamePart c = true
  isWordChar : isWordChar c = true
  isBlank : isBlank c = false
  unmarked : "-/.[]'".toList.contains c = false

theorem isNameOnly_of_isIdentifierChar
    {c : Char} (h : isIdentifierChar c = true) :
    IsNameOnly c := by
  have hall := forall_ascii (p := fun c => !isIdentifierChar c || (Token.isNamePart c &&
    isWordChar c && !isBlank c && !"-/.[]'".toList.contains c)) (by decide +kernel)
    (ascii_of_isIdentifierChar h)
  simp only [h, Bool.not_true, Bool.false_or, Bool.and_eq_true, Bool.not_eq_true'] at hall
  exact ⟨hall.1.1.1, hall.1.1.2, hall.1.2, hall.2⟩

theorem isIdentifierChar_of_starts
    {c : Char} (h : startsIdentifier c = true) :
    isIdentifierChar c = true := by
  simp only [startsIdentifier, isIdentifierChar, Char.isAlphanum, Bool.or_eq_true] at h ⊢
  exact h.imp_left .inl

theorem IsIdentifier.forall_mem
    {cs : List Char} (h : IsIdentifier cs) :
    ∀ c ∈ cs, isIdentifierChar c = true := by
  cases cs with
  | nil => exact h.elim
  | cons c cs =>
    exact List.forall_mem_cons.mpr ⟨isIdentifierChar_of_starts h.1, h.2⟩

end SqlSnapshot.Text
