import SqlSnapshot.Proofs.Json.Scalars

/-!
# Written values read back

Whatever the layout, the reader takes a written value off the front of a text.  The induction is on
the depth of nesting, which bounds both the value and the reader: below one bracket the items are
read by the reader of the next depth, and what follows an item is a comma, a blank or the closing
bracket, none of which a number could go on with.
-/

namespace SqlSnapshot.Json

/-- The value is written in full: none of its parts is without a value, its numbers have less than
64 bits, and it is nested at most `depth` deep. -/
def IsPlain : (depth : Nat) → Json → Prop
  | _, .null => True
  | _, .bool _ => True
  | _, .int n => n.natAbs < UInt64.size
  | _, .text _ => True
  | depth + 1, .array items => ∀ v ∈ items, IsPlain depth v
  | depth + 1, .object members => ∀ m ∈ members, IsPlain depth m.2
  | _, _ => False

/-! ## Blanks -/

theorem skipSpace_append {blanks : List Char} (h : ∀ c ∈ blanks, isSpace c = true)
    (cs : List Char) : skipSpace (blanks ++ cs) = skipSpace cs :=
  List.dropWhile_append_of_pos h

theorem skipSpace_cons_of_not {c : Char} (h : isSpace c = false) (cs : List Char) :
    skipSpace (c :: cs) = c :: cs := by
  simp [skipSpace, h]

theorem isSpace_of_mem_lineStart {layout : Layout} {c : Char} (h : c ∈ layout.lineStart) :
    isSpace c = true := by
  cases layout with
  | compact => simp [Layout.lineStart] at h
  | indented level =>
    simp only [Layout.lineStart, List.mem_cons, List.mem_replicate] at h
    rcases h with rfl | ⟨-, rfl⟩ <;> rfl

theorem skipSpace_lineStart (layout : Layout) {c : Char} (h : isSpace c = false)
    (cs : List Char) : skipSpace (layout.lineStart ++ c :: cs) = c :: cs := by
  rw [skipSpace_append fun _ => isSpace_of_mem_lineStart, skipSpace_cons_of_not h]

/-! ## Lists between brackets -/

section Separated

variable {α β : Type} {readOne : (cs : List Char) → Option (β × Shorter cs)} {close : Char}

theorem readSeparated_last {cs rest rest' : List Char} {v : β}
    (hone : Takes readOne (skipSpace cs) v rest') (hclose : skipSpace rest' = close :: rest) :
    Takes (readSeparated readOne close) cs [v] rest := by
  obtain ⟨hshort, hone⟩ := hone
  have hspace := length_skipSpace_le rest'
  have hspace' := length_skipSpace_le cs
  rw [hclose, List.length_cons] at hspace
  refine ⟨by omega, ?_⟩
  rw [readSeparated, hone]
  dsimp only
  split
  · rename_i hnil
    rw [hclose] at hnil
    contradiction
  · rename_i c rest'' hcons
    rw [hclose] at hcons
    cases hcons
    simp

theorem readSeparated_more {cs rest rest' rest'' : List Char} {v : β} {vs : List β}
    (hcomma : close ≠ ',') (hone : Takes readOne (skipSpace cs) v rest')
    (hnext : skipSpace rest' = ',' :: rest'')
    (hmore : Takes (readSeparated readOne close) rest'' vs rest) :
    Takes (readSeparated readOne close) cs (v :: vs) rest := by
  obtain ⟨hshort, hone⟩ := hone
  obtain ⟨hshort', hmore⟩ := hmore
  have hspace := length_skipSpace_le rest'
  have hspace' := length_skipSpace_le cs
  rw [hnext, List.length_cons] at hspace
  refine ⟨by omega, ?_⟩
  rw [readSeparated, hone]
  dsimp only
  split
  · rename_i hnil
    rw [hnext] at hnil
    contradiction
  · rename_i c rest₃ hcons
    rw [hnext] at hcons
    cases hcons
    have hne : (',' == close) = false := by simpa using hcomma.symm
    simp [hne, hmore]

/-- What may follow an item of a list that ends with `close`. -/
def EndsItem (close : Char) (rest : List Char) : Prop :=
  ∃ c cs, rest = c :: cs ∧ (c = ',' ∨ isSpace c = true ∨ c = close)

/-- The texts of the items after the first, and the end of the list. -/
def separated (layout : Layout) (close : Char) (text : α → List Char) (as : List α) : List Char :=
  as.flatMap (fun a => ',' :: (layout.deeper.lineStart ++ text a)) ++ (layout.lineStart ++ [close])

theorem endsItem_separated (layout : Layout) (close : Char) (text : α → List Char) (as : List α)
    (rest : List Char) : EndsItem close (separated layout close text as ++ rest) := by
  cases as with
  | nil =>
    cases layout with
    | compact => exact ⟨close, rest, rfl, Or.inr (Or.inr rfl)⟩
    | indented level => exact ⟨'\n', _, rfl, Or.inr (Or.inl rfl)⟩
  | cons a as => exact ⟨',', _, rfl, Or.inl rfl⟩

/-- The text begins with a character that is no blank and does not end the list. -/
def StartsItem (close : Char) (text : List Char) : Prop :=
  ∃ c cs, text = c :: cs ∧ isSpace c = false ∧ c ≠ close

theorem readSeparated_separated (layout : Layout) (hcomma : close ≠ ',')
    (hclose : isSpace close = false) (text : α → List Char) (value : α → β) (a : α) (as : List α)
    (rest : List Char) (hstart : ∀ b ∈ a :: as, StartsItem close (text b))
    (hread : ∀ b ∈ a :: as, ∀ r, EndsItem close r → Takes readOne (text b ++ r) (value b) r) :
    Takes (readSeparated readOne close)
      (layout.deeper.lineStart ++ text a ++ separated layout close text as ++ rest)
      ((a :: as).map value) rest := by
  induction as generalizing a with
  | nil =>
    obtain ⟨c, cs, hcs, hspace, -⟩ := hstart a List.mem_cons_self
    have hone := hread a List.mem_cons_self _ (endsItem_separated layout close text [] rest)
    apply readSeparated_last
    · rw [List.append_assoc, List.append_assoc, hcs, List.cons_append,
        skipSpace_lineStart layout.deeper hspace, ← List.cons_append, ← hcs]
      exact hone
    · simp only [separated, List.flatMap_nil, List.nil_append, List.append_assoc,
        List.singleton_append]
      exact skipSpace_lineStart layout hclose rest
  | cons b bs ih =>
    obtain ⟨c, cs, hcs, hspace, -⟩ := hstart a List.mem_cons_self
    have hone := hread a List.mem_cons_self _ (endsItem_separated layout close text (b :: bs) rest)
    have hmore := ih b (fun d hd => hstart d (List.mem_cons_of_mem _ hd))
      (fun d hd => hread d (List.mem_cons_of_mem _ hd))
    rw [List.map_cons]
    apply readSeparated_more hcomma _ _ hmore
    · exact separated layout close text (b :: bs) ++ rest
    · rw [List.append_assoc, List.append_assoc, hcs, List.cons_append,
        skipSpace_lineStart layout.deeper hspace, ← List.cons_append, ← hcs]
      exact hone
    · simp only [separated, List.flatMap_cons, List.cons_append, List.append_assoc]
      exact skipSpace_cons_of_not rfl _

theorem readEnclosed_nil (hclose : isSpace close = false) (rest : List Char) :
    Takes (readEnclosed readOne close) (close :: rest) [] rest := by
  refine ⟨by simp, ?_⟩
  unfold readEnclosed
  split
  · rename_i hnil
    rw [skipSpace_cons_of_not hclose] at hnil
    contradiction
  · rename_i c cs hcons
    rw [skipSpace_cons_of_not hclose] at hcons
    cases hcons
    simp

theorem readEnclosed_cons {cs cs' rest : List Char} {c : Char} {vs : List β}
    (hstart : skipSpace cs = c :: cs') (hne : c ≠ close)
    (hread : Takes (readSeparated readOne close) cs vs rest) :
    Takes (readEnclosed readOne close) cs vs rest := by
  obtain ⟨hshort, hread⟩ := hread
  refine ⟨hshort, ?_⟩
  unfold readEnclosed
  split
  · rename_i hnil
    rw [hstart] at hnil
    contradiction
  · rename_i d ds hcons
    rw [hstart] at hcons
    cases hcons
    have hclose : (c == close) = false := by simpa using hne
    simp [hclose, hread]

/-- The items with the brackets around them, without the opening one. -/
def enclosed (layout : Layout) (close : Char) (text : α → List Char) : List α → List Char
  | [] => [close]
  | a :: as => layout.deeper.lineStart ++ text a ++ separated layout close text as

theorem readEnclosed_enclosed (layout : Layout) (hcomma : close ≠ ',')
    (hclose : isSpace close = false) (text : α → List Char) (value : α → β) (as : List α)
    (rest : List Char) (hstart : ∀ b ∈ as, StartsItem close (text b))
    (hread : ∀ b ∈ as, ∀ r, EndsItem close r → Takes readOne (text b ++ r) (value b) r) :
    Takes (readEnclosed readOne close) (enclosed layout close text as ++ rest) (as.map value)
      rest := by
  cases as with
  | nil => exact readEnclosed_nil hclose rest
  | cons a as =>
    obtain ⟨c, cs, hcs, hspace, hne⟩ := hstart a List.mem_cons_self
    have hsep := readSeparated_separated layout hcomma hclose text value a as rest hstart hread
    have hskip : skipSpace (layout.deeper.lineStart ++ text a ++ separated layout close text as ++
        rest) = c :: (cs ++ (separated layout close text as ++ rest)) := by
      rw [List.append_assoc, List.append_assoc, hcs, List.cons_append,
        skipSpace_lineStart layout.deeper hspace]
    exact readEnclosed_cons hskip hne hsep

end Separated

/-! ## Values -/

/-- The text of a member below the bracket of its object. -/
def memberText (layout : Layout) (m : String × Json) : List Char :=
  quote m.1 ++ layout.colon ++ write layout.deeper m.2

theorem writeItems_eq_separated (layout : Layout) (vs : List Json) :
    writeItems layout vs = separated layout ']' (write layout.deeper) vs := by
  induction vs with
  | nil => rfl
  | cons v vs ih =>
    rw [writeItems, ih]
    simp [separated, List.append_assoc]

theorem writeMembers_eq_separated (layout : Layout) (ms : List (String × Json)) :
    writeMembers layout ms = separated layout '\x7d' (memberText layout) ms := by
  induction ms with
  | nil => rfl
  | cons m ms ih =>
    rw [writeMembers, ih]
    simp [separated, memberText, List.append_assoc]

theorem write_array (layout : Layout) (vs : List Json) :
    write layout (.array vs) = '[' :: enclosed layout ']' (write layout.deeper) vs := by
  cases vs with
  | nil => rfl
  | cons v vs => rw [write, writeItems_eq_separated, enclosed]

theorem write_object (layout : Layout) (ms : List (String × Json)) :
    write layout (.object ms) = '\x7b' :: enclosed layout '\x7d' (memberText layout) ms := by
  cases ms with
  | nil => rfl
  | cons m ms =>
    rw [write, writeMembers_eq_separated, enclosed, memberText]
    simp only [List.append_assoc]

theorem exists_cons_toString (n : Int) :
    ∃ c cs, (toString n).toList = c :: cs ∧ (isNumberDigit c = true ∨ c = '-') := by
  rw [Int.toString_eq_repr, Int.repr_eq_if]
  split
  · obtain ⟨c, cs, hcs⟩ := List.exists_cons_of_length_pos
      (Nat.length_toDigits_pos (b := 10) (n := n.toNat))
    refine ⟨c, cs, by rw [Nat.toList_repr, hcs], Or.inl ?_⟩
    exact isNumberDigit_of_mem_toDigits (hcs ▸ List.mem_cons_self : c ∈ Nat.toDigits 10 n.toNat)
  · exact ⟨'-', _, by rw [String.toList_append]; rfl, Or.inr rfl⟩

theorem startsItem_write (layout : Layout) (v : Json) : StartsItem ']' (write layout v) := by
  cases v with
  | null => exact ⟨'n', _, rfl, rfl, by decide⟩
  | bool b => cases b <;> exact ⟨_, _, rfl, rfl, by decide⟩
  | int n =>
    obtain ⟨c, cs, hcs, hc⟩ := exists_cons_toString n
    refine ⟨c, cs, hcs, ?_⟩
    rcases hc with hdigit | rfl
    · simp only [isNumberDigit, Bool.and_eq_true, decide_eq_true_eq, Char.le_def] at hdigit
      constructor
      · simp only [isSpace, Bool.or_eq_false_iff, beq_eq_false_iff_ne]
        refine ⟨⟨⟨?_, ?_⟩, ?_⟩, ?_⟩ <;> rintro rfl <;> exact absurd hdigit (by decide)
      · rintro rfl
        exact absurd hdigit (by decide)
    · exact ⟨rfl, by decide⟩
  | decimal => exact ⟨'n', _, rfl, rfl, by decide⟩
  | text s => exact ⟨'\x22', _, rfl, rfl, by decide⟩
  | array vs => exact ⟨'[', _, write_array layout vs, rfl, by decide⟩
  | object ms => exact ⟨'\x7b', _, write_object layout ms, rfl, by decide⟩
  | unreadable => exact ⟨'n', _, rfl, rfl, by decide⟩

theorem startsItem_memberText (layout : Layout) (m : String × Json) :
    StartsItem '\x7d' (memberText layout m) :=
  ⟨'\x22', _, rfl, rfl, by decide⟩

theorem endsNumber_of_endsItem {close : Char} {rest : List Char}
    (hclose : isNumberDigit close = false ∧ close ≠ '.' ∧ close ≠ 'e' ∧ close ≠ 'E')
    (h : EndsItem close rest) : EndsNumber rest := by
  obtain ⟨c, cs, rfl, hc⟩ := h
  intro d ds hd
  cases hd
  rcases hc with rfl | hspace | rfl
  · decide
  · simp only [isSpace, Bool.or_eq_true, beq_iff_eq] at hspace
    rcases hspace with ((rfl | rfl) | rfl) | rfl <;> decide
  · exact hclose

theorem readValue_text (depth : Nat) (s : String) (rest : List Char) :
    Takes (readValue depth) (quote s ++ rest) (.text s) rest := by
  obtain ⟨hshort, hread⟩ := readString_quoted s rest
  have htext : quote s ++ rest = '\x22' :: (s.toList.flatMap escapeChar ++ '\x22' :: rest) := by
    simp [quote]
  rw [htext]
  refine ⟨by rw [List.length_cons]; omega, ?_⟩
  unfold readValue
  simp [hread]

theorem readValue_int (depth : Nat) {n : Int} (h : n.natAbs < UInt64.size) {rest : List Char}
    (hrest : EndsNumber rest) :
    Takes (readValue depth) ((toString n).toList ++ rest) (.int n) rest := by
  obtain ⟨c, cs, hcs, hc⟩ := exists_cons_toString n
  have hread := takes_readNumber h hrest
  rw [hcs, List.cons_append] at hread ⊢
  have hother : c ≠ '\x22' ∧ c ≠ '[' ∧ c ≠ '\x7b' ∧ c ≠ 'n' ∧ c ≠ 't' ∧ c ≠ 'f' := by
    refine ⟨?_, ?_, ?_, ?_, ?_, ?_⟩ <;> rintro rfl <;> exact absurd hc (by decide)
  obtain ⟨hshort, hread⟩ := hread
  refine ⟨hshort, ?_⟩
  unfold readValue
  split
  all_goals simp_all

theorem readValue_word
    {v : Json} (h : v = .null ∨ ∃ b, v = .bool b) (depth : Nat) (layout : Layout)
    (rest : List Char) :
    Takes (readValue depth) (write layout v ++ rest) v rest := by
  rcases h with rfl | ⟨b, rfl⟩
  · refine ⟨by simp only [write, List.cons_append, List.nil_append, List.length_cons]; omega, ?_⟩
    unfold readValue
    simp [write, stripWord?]
  · cases b with
    | true =>
      refine ⟨by simp only [write, List.cons_append, List.nil_append, List.length_cons]; omega, ?_⟩
      unfold readValue
      simp [write, stripWord?]
    | false =>
      refine ⟨by simp only [write, List.cons_append, List.nil_append, List.length_cons]; omega, ?_⟩
      unfold readValue
      simp [write, stripWord?]

theorem readMember_memberText {depth : Nat} (layout : Layout) (m : String × Json)
    {rest : List Char}
    (hread : Takes (readValue depth) (write layout.deeper m.2 ++ rest) m.2 rest) :
    Takes (readMember (readValue depth)) (memberText layout m ++ rest) (some m.1, m.2) rest := by
  obtain ⟨hname, hstring⟩ :=
    readString_quoted m.1 (layout.colon ++ (write layout.deeper m.2 ++ rest))
  have htext : memberText layout m ++ rest = '\x22' :: (m.1.toList.flatMap escapeChar ++
      '\x22' :: (layout.colon ++ (write layout.deeper m.2 ++ rest))) := by
    simp [memberText, quote, List.append_assoc]
  obtain ⟨blanks, hcolon, hblanks⟩ : ∃ blanks, layout.colon = ':' :: blanks ∧
      skipSpace (blanks ++ (write layout.deeper m.2 ++ rest)) =
        write layout.deeper m.2 ++ rest := by
    obtain ⟨c, cs, hcs, hspace, -⟩ := startsItem_write layout.deeper m.2
    cases layout with
    | compact =>
      refine ⟨[], rfl, ?_⟩
      rw [hcs]
      exact skipSpace_cons_of_not hspace _
    | indented level =>
      refine ⟨[' '], rfl, ?_⟩
      have hblank : ∀ c ∈ [' '], isSpace c = true := by simp [isSpace]
      rw [hcs, skipSpace_append hblank]
      exact skipSpace_cons_of_not hspace _
  have hskip : skipSpace (layout.colon ++ (write layout.deeper m.2 ++ rest)) =
      ':' :: (blanks ++ (write layout.deeper m.2 ++ rest)) := by
    rw [hcolon]
    exact skipSpace_cons_of_not rfl _
  rw [← hblanks] at hread
  obtain ⟨hshort, hread⟩ := hread
  rw [htext]
  have hlength := length_skipSpace_le (blanks ++ (write layout.deeper m.2 ++ rest))
  have hlength' := length_skipSpace_le (layout.colon ++ (write layout.deeper m.2 ++ rest))
  rw [hskip, List.length_cons] at hlength'
  refine ⟨by rw [List.length_cons]; omega, ?_⟩
  unfold readMember
  simp only [hstring]
  split
  · rename_i rest' heq
    rw [hskip] at heq
    cases heq
    rw [hread]
  · rename_i hno
    exact absurd hskip (hno _)

theorem ofMembers_some (ms : List (String × Json)) :
    ofMembers (ms.map fun m => (some m.1, m.2)) = .object ms := by
  have hnames : (ms.map fun m => (some m.1, m.2)).mapM
      (fun m : Option String × Json => m.1.map (·, m.2)) = some ms := by
    induction ms with
    | nil => rfl
    | cons m ms ih =>
      rw [List.map_cons, List.mapM_cons, ih]
      rfl
  rw [ofMembers, hnames]

theorem readValue_scalar {depth : Nat} {v : Json} (h : IsPlain depth v)
    (harray : ∀ vs, v ≠ .array vs) (hobject : ∀ ms, v ≠ .object ms) (layout : Layout)
    {rest : List Char} (hrest : EndsNumber rest) :
    Takes (readValue depth) (write layout v ++ rest) v rest := by
  cases v with
  | null => exact readValue_word (Or.inl rfl) depth layout rest
  | bool b => exact readValue_word (Or.inr ⟨b, rfl⟩) depth layout rest
  | int n => exact readValue_int depth (by cases depth <;> exact h) hrest
  | text s => exact readValue_text depth s rest
  | decimal => cases depth <;> exact absurd h (by simp [IsPlain])
  | unreadable => cases depth <;> exact absurd h (by simp [IsPlain])
  | array vs => exact absurd rfl (harray vs)
  | object ms => exact absurd rfl (hobject ms)

theorem takes_readValue {depth : Nat} {v : Json} (h : IsPlain depth v) (layout : Layout)
    {rest : List Char} (hrest : EndsNumber rest) :
    Takes (readValue depth) (write layout v ++ rest) v rest := by
  induction depth generalizing v layout rest with
  | zero =>
    cases v with
    | array vs => exact absurd h (by simp [IsPlain])
    | object ms => exact absurd h (by simp [IsPlain])
    | _ => exact readValue_scalar h (by simp) (by simp) layout hrest
  | succ depth ih =>
    cases v with
    | array items =>
      have henclosed := readEnclosed_enclosed layout (by decide) rfl (write layout.deeper) id items
        rest (fun v _ => startsItem_write layout.deeper v)
        (fun v hv r hr => ih (h v hv) layout.deeper (endsNumber_of_endsItem (by decide) hr))
      obtain ⟨hshort, hread⟩ := henclosed
      rw [write_array, List.cons_append]
      refine ⟨by rw [List.length_cons]; omega, ?_⟩
      unfold readValue
      simp [hread]
    | object members =>
      have henclosed := readEnclosed_enclosed layout (by decide) rfl (memberText layout)
        (fun m => (some m.1, m.2)) members rest (fun m _ => startsItem_memberText layout m)
        (fun m hm r hr => readMember_memberText layout m
          (ih (h m hm) layout.deeper (endsNumber_of_endsItem (by decide) hr)))
      obtain ⟨hshort, hread⟩ := henclosed
      rw [write_object, List.cons_append]
      refine ⟨by rw [List.length_cons]; omega, ?_⟩
      unfold readValue
      simp only [hread, ofMembers_some]
    | _ => exact readValue_scalar h (by simp) (by simp) layout hrest

/-- A written document with a line feed at its end is read back. -/
theorem parse?_pretty {v : Json} (h : IsPlain nestingLimit v) :
    parse? (v.pretty ++ "\n") = some v := by
  have hends : EndsNumber ['\n'] := by
    intro c cs heq
    cases heq
    decide
  obtain ⟨c, cs, hcs, hspace, -⟩ := startsItem_write (.indented 0) v
  have hread := takes_readValue h (.indented 0) hends
  have htext : skipSpace (v.pretty ++ "\n").toList = write (.indented 0) v ++ ['\n'] := by
    rw [String.toList_append, pretty, String.toList_ofList, hcs]
    exact skipSpace_cons_of_not hspace _
  rw [← htext] at hread
  obtain ⟨hshort, hread⟩ := hread
  unfold parse?
  rw [hread]
  rfl

end SqlSnapshot.Json
