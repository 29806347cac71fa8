import SqlSnapshot.Proofs.Text.LatinCase

/-!
# Capital sigmas at the ends of words

The lower case of a text and its characters each in lower case by itself differ at the capital
sigmas that end words, and nowhere else.  Both are therefore views of one list, which holds the
characters with a mark at these sigmas, and any two of characters, lower case and marks determine
the third.
-/

namespace SqlSnapshot

/-- Lists that look alike under two functions are equal, if the functions together tell their
members apart. -/
theorem eq_of_map_eq_of_map_eq
    {α β γ : Type} {P : α → Prop} {f : α → β} {g : α → γ}
    (hinjective : ∀ a b, P a → P b → f a = f b → g a = g b → a = b) {as bs : List α}
    (has : ∀ a ∈ as, P a) (hbs : ∀ b ∈ bs, P b) (hf : as.map f = bs.map f)
    (hg : as.map g = bs.map g) :
    as = bs := by
  induction as generalizing bs with
  | nil => exact (List.map_eq_nil_iff.mp hf.symm).symm
  | cons a as ih =>
    cases bs with
    | nil => exact absurd hf (by simp)
    | cons b bs =>
      obtain ⟨ha, has⟩ := List.forall_mem_cons.mp has
      obtain ⟨hb, hbs⟩ := List.forall_mem_cons.mp hbs
      simp only [List.map_cons, List.cons.injEq] at hf hg
      rw [hinjective a b ha hb hf.1 hg.1, ih has hbs hf.2 hg.2]

/-- A separator divides two texts alike if it stands equally often before the division. -/
theorem append_cons_inj_of_count
    {α : Type} [BEq α] [LawfulBEq α] {c : α} {as bs as' bs' : List α}
    (hcount : as.count c = as'.count c) (h : as ++ c :: bs = as' ++ c :: bs') :
    as = as' ∧ bs = bs' := by
  induction as generalizing as' with
  | nil =>
    cases as' with
    | nil => exact ⟨rfl, (List.cons.inj h).2⟩
    | cons a as' =>
      obtain ⟨rfl, -⟩ := List.cons.inj h
      simp at hcount
  | cons a as ih =>
    cases as' with
    | nil =>
      obtain ⟨rfl, -⟩ := List.cons.inj h
      simp at hcount
    | cons a' as' =>
      rw [List.cons_append, List.cons_append, List.cons.injEq] at h
      obtain ⟨rfl, h⟩ := h
      have hrest : as.count c = as'.count c := by
        simp only [List.count_cons] at hcount
        omega
      obtain ⟨rfl, rfl⟩ := ih hrest h
      exact ⟨rfl, rfl⟩

namespace Text

/-! ## Marks -/

/-- The characters `cs` that follow `before`, each in lower case by itself, with a mark at the
capital sigmas that end words; `before` is held in reverse. -/
def markedFrom (before : List Char) : List Char → List (Char × Bool)
  | [] => []
  | c :: cs =>
    (lowerChar c).map (fun d => (d, c == 'Σ' && meetsCased before && !meetsCased cs)) ++
      markedFrom (c :: before) cs

/-- For each character in lower case, whether it comes from a capital sigma that ends a word. -/
def finalSigmas (s : String) : List Bool :=
  (markedFrom [] s.toList).map (·.2)

/-- A marked character as it stands in the lower case of the text. -/
def written (m : Char × Bool) : Char :=
  if m.2 then 'ς' else m.1

theorem lowerChar_sigma : lowerChar 'Σ' = ['σ'] := by
  decide +kernel

theorem map_fst_markedFrom
    (before cs : List Char) :
    (markedFrom before cs).map (·.1) = cs.flatMap lowerChar := by
  induction cs generalizing before with
  | nil => rfl
  | cons c cs ih =>
    rw [markedFrom, List.map_append, ih, List.map_map, List.flatMap_cons]
    simp [Function.comp_def]

theorem map_written_markedFrom
    (before cs : List Char) :
    (markedFrom before cs).map written = lowerFrom before cs := by
  induction cs generalizing before with
  | nil => rfl
  | cons c cs ih =>
    rw [markedFrom, lowerFrom, List.map_append, ih, List.map_map]
    congr 1
    by_cases hsigma : c = 'Σ'
    · subst hsigma
      rw [lowerChar_sigma, if_pos rfl, beq_self_eq_true, Bool.true_and]
      exact apply_ite List.singleton _ _ _
    · rw [if_neg hsigma, beq_false_of_ne hsigma, Bool.false_and, Bool.false_and]
      exact List.map_id' _

theorem eq_sigma_of_mem_markedFrom
    {before cs : List Char} {m : Char × Bool} (h : m ∈ markedFrom before cs) (hmark : m.2 = true) :
    m.1 = 'σ' := by
  induction cs generalizing before with
  | nil => cases h
  | cons c cs ih =>
    rw [markedFrom] at h
    rcases List.mem_append.mp h with h | h
    · obtain ⟨d, hd, rfl⟩ := List.mem_map.mp h
      simp only [Bool.and_eq_true, beq_iff_eq] at hmark
      obtain ⟨⟨rfl, -⟩, -⟩ := hmark
      rw [lowerChar_sigma] at hd
      exact List.mem_singleton.mp hd
    · exact ih h

/-! ## Texts -/

variable {s t : String}

theorem map_fst_marked (s : String) : (markedFrom [] s.toList).map (·.1) = caseKey s :=
  map_fst_markedFrom [] s.toList

theorem map_written_marked (s : String) :
    (markedFrom [] s.toList).map written = (lower s).toList := by
  rw [map_written_markedFrom, lower, String.toList_ofList]

/-- Any two of the three views determine the marked characters. -/
theorem marked_eq_of_views
    {β γ : Type} {f : Char × Bool → β} {g : Char × Bool → γ}
    (hinjective : ∀ m n : Char × Bool, (m.2 = true → m.1 = 'σ') → (n.2 = true → n.1 = 'σ') →
      f m = f n → g m = g n → m = n)
    (hf : (markedFrom [] s.toList).map f = (markedFrom [] t.toList).map f)
    (hg : (markedFrom [] s.toList).map g = (markedFrom [] t.toList).map g) :
    markedFrom [] s.toList = markedFrom [] t.toList :=
  eq_of_map_eq_of_map_eq hinjective (fun _ h => eq_sigma_of_mem_markedFrom h)
    (fun _ h => eq_sigma_of_mem_markedFrom h) hf hg

theorem caseKey_eq_iff_of_finalSigmas_eq
    (h : finalSigmas s = finalSigmas t) :
    caseKey s = caseKey t ↔ lower s = lower t := by
  constructor
  · intro hkey
    rw [← map_fst_marked s, ← map_fst_marked t] at hkey
    have hmarked := marked_eq_of_views (fun m n _ _ h₁ h₂ => Prod.ext h₁ h₂) hkey h
    apply String.toList_injective
    rw [← map_written_marked, ← map_written_marked, hmarked]
  · intro hlower
    have hwritten := congrArg String.toList hlower
    rw [← map_written_marked s, ← map_written_marked t] at hwritten
    have hinjective : ∀ m n : Char × Bool, (m.2 = true → m.1 = 'σ') → (n.2 = true → n.1 = 'σ') →
        m.2 = n.2 → written m = written n → m = n := by
      rintro ⟨c, a⟩ ⟨d, b⟩ hm hn (rfl : a = b) hwritten
      cases a with
      | true => exact Prod.ext ((hm rfl).trans (hn rfl).symm) rfl
      | false => exact Prod.ext hwritten rfl
    rw [← map_fst_marked, ← map_fst_marked, marked_eq_of_views hinjective h hwritten]

theorem finalSigmas_eq_of_caseKey_eq
    (hkey : caseKey s = caseKey t) (hlower : lower s = lower t) :
    finalSigmas s = finalSigmas t := by
  have hwritten := congrArg String.toList hlower
  rw [← map_written_marked s, ← map_written_marked t] at hwritten
  rw [← map_fst_marked s, ← map_fst_marked t] at hkey
  have hinjective : ∀ m n : Char × Bool, (m.2 = true → m.1 = 'σ') → (n.2 = true → n.1 = 'σ') →
      m.1 = n.1 → written m = written n → m = n := by
    rintro ⟨c, a⟩ ⟨d, b⟩ hm hn (rfl : c = d) hwritten
    cases a with
    | true =>
      obtain rfl := hm rfl
      cases b with
      | true => rfl
      | false => exact absurd hwritten (by decide)
    | false =>
      cases b with
      | true =>
        obtain rfl := hn rfl
        exact absurd hwritten (by decide)
      | false => rfl
  rw [finalSigmas, finalSigmas, marked_eq_of_views hinjective hkey hwritten]

/-! ## Dots -/

theorem ofNat_eq_dot_iff (n : Nat) : Char.ofNat n = '.' ↔ n = 0x2E := by
  constructor
  · intro h
    have hdot : (Char.ofNat n).toNat = 0x2E := congrArg Char.toNat h
    rcases toNat_ofNat_cases n with hn | hzero <;> omega
  · rintro rfl
    rfl

theorem count_dot_lowerChar (c : Char) : (lowerChar c).count '.' = [c].count '.' := by
  by_cases hdotted : c = '\u0130'
  · subst hdotted
    decide
  · have himage : Char.ofNat (shiftBy lowerRuns c.toNat) = '.' ↔ c = '.' := by
      rw [ofNat_eq_dot_iff]
      constructor
      · intro h
        rcases shiftBy_eq_or lowerRuns_images c.toNat with heq | hgt
        · rw [heq] at h
          exact Char.ext (UInt32.toNat.inj h)
        · omega
      · rintro rfl
        decide
    rw [lowerChar, if_neg hdotted, List.count_singleton, List.count_singleton]
    simp only [beq_iff_eq, himage]

theorem count_dot_caseKey (s : String) : (caseKey s).count '.' = s.toList.count '.' := by
  rw [caseKey]
  induction s.toList with
  | nil => rfl
  | cons c cs ih =>
    rw [List.flatMap_cons, List.count_append, ih, count_dot_lowerChar, ← List.count_append]
    rfl

theorem count_dot_lower (s : String) : (lower s).toList.count '.' = s.toList.count '.' := by
  rw [← map_written_marked, ← count_dot_caseKey s, ← map_fst_marked, List.count_eq_countP,
    List.count_eq_countP, List.countP_map, List.countP_map]
  apply List.countP_congr
  rintro ⟨c, mark⟩ hm
  cases mark with
  | true =>
    obtain rfl : c = 'σ' := eq_sigma_of_mem_markedFrom hm rfl
    decide
  | false => rfl

end Text

end SqlSnapshot
