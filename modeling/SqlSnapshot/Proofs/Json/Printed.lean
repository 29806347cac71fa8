import SqlSnapshot.Proofs.Json.Scalars
import SqlSnapshot.Proofs.Text.Digits

/-!
# The characters of written JSON

Whatever a value holds, its text has no control character of ASCII but the line feeds between its
lines: the control characters of texts and names are escaped, and everything else that is written
is visible.
-/

namespace SqlSnapshot.Json

/-- The character may stand in written JSON. -/
def IsPrinted (c : Char) : Prop :=
  0x20 ≤ c.toNat ∨ c = '\n'

instance : DecidablePred IsPrinted :=
  fun c => inferInstanceAs (Decidable (0x20 ≤ c.toNat ∨ c = '\n'))

variable {c d : Char} {layout : Layout}

theorem isPrinted_of_all
    {cs : List Char} (h : cs.all (fun d => decide (IsPrinted d)) = true) (hc : c ∈ cs) :
    IsPrinted c :=
  of_decide_eq_true (List.all_eq_true.mp h c hc)

theorem isPrinted_hexDigit
    {n : Nat} (h : n < 16) :
    IsPrinted (hexDigit n) :=
  (by decide : ∀ n < 16, IsPrinted (hexDigit n)) n h

theorem isPrinted_of_mem_escapeChar
    (h : d ∈ escapeChar c) :
    IsPrinted d := by
  unfold escapeChar at h
  split at h
  case h_8 =>
    split at h
    · rename_i hlow
      have hhigh := isPrinted_hexDigit (n := c.toNat / 16) (by omega)
      have hrest := isPrinted_hexDigit (n := c.toNat % 16) (by omega)
      simp only [List.mem_cons, List.not_mem_nil, or_false] at h
      rcases h with rfl | rfl | rfl | rfl | rfl | rfl
      · decide
      · decide
      · decide
      · decide
      · exact hhigh
      · exact hrest
    · rename_i hhigh
      rw [List.mem_singleton] at h
      exact Or.inl (h ▸ Nat.le_of_not_lt hhigh)
  all_goals
    exact isPrinted_of_all (by decide) h

theorem isPrinted_of_mem_quote
    {s : String} (h : c ∈ quote s) :
    IsPrinted c := by
  simp only [quote, List.mem_cons, List.mem_append, List.mem_flatMap, List.not_mem_nil,
    or_false] at h
  rcases h with rfl | ⟨_, _, h⟩ | rfl
  · decide
  · exact isPrinted_of_mem_escapeChar h
  · decide

theorem isPrinted_of_mem_lineStart
    (h : c ∈ layout.lineStart) :
    IsPrinted c := by
  cases layout with
  | compact => contradiction
  | indented level =>
    rcases List.mem_cons.mp h with rfl | hblank
    · exact Or.inr rfl
    · rw [List.eq_of_mem_replicate hblank]
      decide

theorem isPrinted_of_mem_colon
    (h : c ∈ layout.colon) :
    IsPrinted c := by
  cases layout with
  | compact => exact isPrinted_of_all rfl h
  | indented level => exact isPrinted_of_all rfl h

theorem isPrinted_of_isDigit
    (h : Text.isDigit c = true) :
    IsPrinted c := by
  simp only [Text.isDigit, Bool.and_eq_true, decide_eq_true_eq] at h
  have hlow : '0'.toNat ≤ c.toNat := h.1
  exact Or.inl (Nat.le_trans (by decide) hlow)

theorem isPrinted_of_mem_toString
    {n : Int} (h : c ∈ (toString n).toList) :
    IsPrinted c := by
  rcases Text.eq_or_isDigit_of_mem_toString h with rfl | hdigit
  · decide
  · exact isPrinted_of_isDigit hdigit

mutual

theorem isPrinted_of_mem_write
    (layout : Layout) (v : Json) (h : c ∈ v.write layout) :
    IsPrinted c := by
  match v with
  | .null | .decimal | .unreadable | .bool true | .bool false | .array [] | .object [] =>
    simp only [write] at h
    exact isPrinted_of_all (by decide) h
  | .int value => exact isPrinted_of_mem_toString (by simpa only [write] using h)
  | .text value => exact isPrinted_of_mem_quote (by simpa only [write] using h)
  | .array (v :: vs) =>
    simp only [write, List.mem_cons, List.mem_append] at h
    rcases h with rfl | (hstart | hitem) | hrest
    · decide
    · exact isPrinted_of_mem_lineStart hstart
    · exact isPrinted_of_mem_write layout.deeper v hitem
    · exact isPrinted_of_mem_writeItems layout vs hrest
  | .object ((k, v) :: ms) =>
    simp only [write, List.mem_cons, List.mem_append] at h
    rcases h with rfl | (((hstart | hname) | hcolon) | hvalue) | hrest
    · decide
    · exact isPrinted_of_mem_lineStart hstart
    · exact isPrinted_of_mem_quote hname
    · exact isPrinted_of_mem_colon hcolon
    · exact isPrinted_of_mem_write layout.deeper v hvalue
    · exact isPrinted_of_mem_writeMembers layout ms hrest

theorem isPrinted_of_mem_writeItems
    (layout : Layout) (vs : List Json) (h : c ∈ writeItems layout vs) :
    IsPrinted c := by
  match vs with
  | [] =>
    rcases List.mem_append.mp h with hstart | hclose
    · exact isPrinted_of_mem_lineStart hstart
    · exact isPrinted_of_all (by decide) hclose
  | v :: vs =>
    simp only [writeItems, List.mem_cons, List.mem_append] at h
    rcases h with rfl | (hstart | hitem) | hrest
    · decide
    · exact isPrinted_of_mem_lineStart hstart
    · exact isPrinted_of_mem_write layout.deeper v hitem
    · exact isPrinted_of_mem_writeItems layout vs hrest

theorem isPrinted_of_mem_writeMembers
    (layout : Layout) (ms : List (String × Json)) (h : c ∈ writeMembers layout ms) :
    IsPrinted c := by
  match ms with
  | [] =>
    rcases List.mem_append.mp h with hstart | hclose
    · exact isPrinted_of_mem_lineStart hstart
    · exact isPrinted_of_all (by decide) hclose
  | (k, v) :: ms =>
    simp only [writeMembers, List.mem_cons, List.mem_append] at h
    rcases h with rfl | (((hstart | hname) | hcolon) | hvalue) | hrest
    · decide
    · exact isPrinted_of_mem_lineStart hstart
    · exact isPrinted_of_mem_quote hname
    · exact isPrinted_of_mem_colon hcolon
    · exact isPrinted_of_mem_write layout.deeper v hvalue
    · exact isPrinted_of_mem_writeMembers layout ms hrest

end

end SqlSnapshot.Json
