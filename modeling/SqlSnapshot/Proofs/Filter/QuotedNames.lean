import SqlSnapshot.Proofs.Filter.Names
import SqlSnapshot.Proofs.Filter.Wildcards

/-!
# Quoted names read back

A quoted name has its parts in square brackets, and a closing bracket inside a part is written
twice.  The reader of qualified names counts open brackets and takes one pair off each part, but it
leaves what is written twice as it stands: a quoted name is read back exactly if no closing bracket
stands in a part and no bracket at all in the schema.
-/

namespace SqlSnapshot

/-! ## Trimmed texts -/

namespace Text

variable {p : Char → Bool} {cs : List Char}

theorem trimStart_append (h : ∀ c ∈ cs.head?, p c = false) (front : List Char) :
    trimStart p (front ++ cs) = trimStart p front ++ cs := by
  induction front with
  | nil => exact dropWhile_of_head? h
  | cons c front ih =>
    simp only [trimStart, List.cons_append, List.dropWhile_cons] at ih ⊢
    cases p c with
    | true => exact ih
    | false => rfl

theorem trimEnd_append (h : ∀ c ∈ cs.getLast?, p c = false) (back : List Char) :
    trimEnd p (cs ++ back) = cs ++ trimEnd p back := by
  have hreverse : ∀ c ∈ cs.reverse.head?, p c = false := by rwa [List.head?_reverse]
  have hstart := trimStart_append hreverse back.reverse
  rw [trimStart, trimStart] at hstart
  rw [trimEnd, trimEnd, List.reverse_append, hstart, List.reverse_append, List.reverse_reverse]

/-- What has no blank at its ends stays when the text around it is trimmed. -/
theorem IsTrimmed.trimBoth_append (h : IsTrimmed cs) (hne : cs ≠ []) (front back : List Char) :
    trimBoth isBlank (front ++ (cs ++ back)) =
      trimStart isBlank front ++ (cs ++ trimEnd isBlank back) := by
  have hfirst : ∀ c ∈ (cs ++ back).head?, isBlank c = false := by
    rw [List.head?_append, List.head?_eq_some_head hne, Option.some_or,
      ← List.head?_eq_some_head hne]
    exact h.first
  have hlast : ∀ c ∈ (trimStart isBlank front ++ cs).getLast?, isBlank c = false := by
    rw [List.getLast?_append, List.getLast?_eq_some_getLast hne, Option.some_or,
      ← List.getLast?_eq_some_getLast hne]
    exact h.last
  rw [trimBoth, trimStart_append hfirst, ← List.append_assoc, trimEnd_append hlast,
    List.append_assoc]

end Text

namespace Descriptor

/-! ## Brackets taken off -/

/-- Taking brackets off takes two characters at most. -/
theorem length_trimBoth_le (cs : List Char) :
    (Text.trimBoth Text.isBlank cs).length ≤ (unbracket cs).toList.length + 2 := by
  rw [unbracket, String.toList_ofList]
  generalize Text.trimBoth Text.isBlank cs = trimmed
  unfold betweenBrackets?
  split
  · split
    · rw [Option.getD_some, List.length_dropLast, List.length_cons]
      omega
    · exact Nat.le_add_right _ 2
  · exact Nat.le_add_right _ 2

/-- A part is no shorter than what stands in it, less two brackets. -/
theorem length_le_unbracket
    {cs : List Char} (htrimmed : Text.IsTrimmed cs) (hne : cs ≠ []) (front back : List Char) :
    cs.length ≤ (unbracket (front ++ (cs ++ back))).toList.length + 2 := by
  refine Nat.le_trans ?_ (length_trimBoth_le _)
  rw [htrimmed.trimBoth_append hne, List.length_append, List.length_append]
  omega

/-! ## Where a name is cut -/

theorem splitQualified?_append
    {depth : Nat} {cs before after : List Char}
    (h : splitQualified? depth cs = some (before, after)) :
    cs = before ++ '.' :: after := by
  induction cs generalizing depth before with
  | nil => cases h
  | cons c cs ih =>
    rw [splitQualified?] at h
    split at h
    · rename_i hdot
      cases h
      rw [hdot.1]
      rfl
    · obtain ⟨⟨before', after'⟩, hlater, heq⟩ := Option.map_eq_some_iff.mp h
      cases heq
      rw [ih hlater]
      rfl

theorem foldl_bracketStep_of_splitQualified?
    {depth : Nat} {cs before after : List Char}
    (h : splitQualified? depth cs = some (before, after)) :
    before.foldl bracketStep depth = 0 := by
  induction cs generalizing depth before with
  | nil => cases h
  | cons c cs ih =>
    rw [splitQualified?] at h
    split at h
    · rename_i hdot
      cases h
      exact hdot.2
    · obtain ⟨⟨before', after'⟩, hlater, heq⟩ := Option.map_eq_some_iff.mp h
      cases heq
      rw [List.foldl_cons]
      exact ih hlater

/-- Without a closing bracket every opening one stays open. -/
theorem foldl_bracketStep_of_not_mem {cs : List Char} (h : ']' ∉ cs) (depth : Nat) :
    cs.foldl bracketStep depth = depth + cs.count '[' := by
  induction cs generalizing depth with
  | nil => rfl
  | cons c cs ih =>
    rw [List.mem_cons, not_or] at h
    rw [List.foldl_cons, ih h.2, bracketStep, if_neg fun hc : c = ']' => h.1 hc.symm,
      List.count_cons]
    by_cases hopens : c = '['
    · simp only [hopens, if_true, beq_self_eq_true]
      omega
    · simp [hopens]

/-! ## Closing brackets written twice -/

def doubled (cs : List Char) : List Char :=
  cs.flatMap fun c => if c = ']' then [']', ']'] else [c]

theorem length_doubled (cs : List Char) : (doubled cs).length = cs.length + cs.count ']' := by
  induction cs with
  | nil => rfl
  | cons c cs ih =>
    rw [doubled, List.flatMap_cons, List.length_append, ← doubled, ih, List.length_cons,
      List.count_cons]
    by_cases hc : c = ']'
    · simp only [hc, if_true, beq_self_eq_true, List.length_cons, List.length_nil]
      omega
    · simp only [hc, if_false, beq_iff_eq, List.length_singleton]
      omega

theorem doubled_of_not_mem {cs : List Char} (h : ']' ∉ cs) : doubled cs = cs := by
  induction cs with
  | nil => rfl
  | cons c cs ih =>
    rw [List.mem_cons, not_or] at h
    rw [doubled, List.flatMap_cons, ← doubled, ih h.2, if_neg fun hc : c = ']' => h.1 hc.symm]
    rfl

theorem not_mem_of_doubled_eq {cs : List Char} (h : doubled cs = cs) : ']' ∉ cs := by
  have hlength := length_doubled cs
  rw [h] at hlength
  exact List.count_eq_zero.mp (by omega)

theorem toList_quoted (d : Descriptor) :
    d.quoted.toList =
      ('[' :: doubled d.schema.toList ++ [']']) ++ '.' :: ('[' :: doubled d.name.toList ++ [']']) :=
  String.toList_ofList

theorem parseQualified?_quoted_eq (d : Descriptor) :
    parseQualified? d.quoted =
      (splitQualified? 0 d.quoted.toList).map fun (schema, name) =>
        ⟨unbracket schema, unbracket name⟩ := by
  have htrimmed : Text.IsTrimmed d.quoted.toList := by
    rw [toList_quoted]
    exact (isTrimmed_bracketed _).append_dot (isTrimmed_bracketed _)
  rw [parseQualified?, htrimmed.trimBoth_eq]

/-- Behind a schema without brackets the name is read as it is written. -/
theorem parseQualified?_quoted {d : Descriptor} (h : IsBracketFree d.schema.toList) :
    parseQualified? d.quoted = some ⟨d.schema, String.ofList (doubled d.name.toList)⟩ := by
  have hschema : doubled d.schema.toList = d.schema.toList :=
    doubled_of_not_mem fun hmem => (h _ hmem).2 rfl
  rw [parseQualified?_quoted_eq, toList_quoted, hschema, splitQualified?_bracketed h,
    Option.map_some]
  simp only [unbracket_bracketed, String.ofList_toList]

/-- What is read back is cut between its two parts: elsewhere one of the parts would be too long. -/
theorem eq_of_splitQualified?_quoted
    {d : Descriptor} {before after : List Char}
    (hsplit : splitQualified? 0 d.quoted.toList = some (before, after))
    (hschema : unbracket before = d.schema) (hname : unbracket after = d.name) :
    before = '[' :: doubled d.schema.toList ++ [']'] ∧
      after = '[' :: doubled d.name.toList ++ [']'] := by
  have htext := splitQualified?_append hsplit
  rw [toList_quoted] at htext
  have hschemaLength := length_doubled d.schema.toList
  have hnameLength := length_doubled d.name.toList
  rcases List.append_eq_append_iff.mp htext with ⟨more, hbefore, hafter⟩ | ⟨more, hbefore, hafter⟩
  · rcases List.cons_eq_append_iff.mp hafter with ⟨rfl, hcons⟩ | ⟨more', rfl, -⟩
    · rw [List.append_nil] at hbefore
      exact ⟨hbefore, (List.cons.inj hcons).2⟩
    · -- the cut is behind the dot
      have htrimmed : Text.IsTrimmed (('[' :: doubled d.schema.toList ++ [']']) ++ ['.']) :=
        (isTrimmed_bracketed _).append_dot (Text.isTrimmed_of_forall (by simp))
      have hparts : before = (('[' :: doubled d.schema.toList ++ [']']) ++ ['.']) ++ more' := by
        rw [hbefore, List.append_assoc _ ['.'], List.singleton_append]
      have hlength := length_le_unbracket htrimmed (by simp) [] more'
      rw [List.nil_append, ← hparts, hschema] at hlength
      simp only [List.length_append, List.length_cons, List.length_nil] at hlength
      omega
  · rcases List.cons_eq_append_iff.mp hafter with ⟨rfl, hcons⟩ | ⟨more', rfl, hmore⟩
    · rw [List.append_nil] at hbefore
      exact ⟨hbefore.symm, (List.cons.inj hcons).2.symm⟩
    · -- the cut is before the dot
      have hnothing : Text.IsTrimmed [] := Text.isTrimmed_of_forall (by simp)
      have htrimmed : Text.IsTrimmed ('.' :: ('[' :: doubled d.name.toList ++ [']'])) :=
        hnothing.append_dot (isTrimmed_bracketed _)
      have hlength := length_le_unbracket htrimmed (by simp) more' []
      rw [List.append_nil, ← hmore, hname] at hlength
      simp only [List.length_append, List.length_cons, List.length_nil] at hlength
      omega

/-- A quoted name is read back as schema and name exactly if no bracket stands in the schema and no
closing one in the name. -/
theorem parseQualified?_quoted_eq_some_iff (d : Descriptor) :
    parseQualified? d.quoted = some d ↔
      (∀ c ∈ d.schema.toList, c ≠ '[' ∧ c ≠ ']') ∧ ∀ c ∈ d.name.toList, c ≠ ']' := by
  constructor
  · intro h
    rw [parseQualified?_quoted_eq] at h
    obtain ⟨⟨before, after⟩, hsplit, heq⟩ := Option.map_eq_some_iff.mp h
    have hschema : unbracket before = d.schema := congrArg Descriptor.schema heq
    have hname : unbracket after = d.name := congrArg Descriptor.name heq
    obtain ⟨hbefore, hafter⟩ := eq_of_splitQualified?_quoted hsplit hschema hname
    rw [hbefore, unbracket_bracketed] at hschema
    rw [hafter, unbracket_bracketed] at hname
    have hschemaDoubled : doubled d.schema.toList = d.schema.toList :=
      String.toList_ofList.symm.trans (congrArg String.toList hschema)
    have hnameDoubled : doubled d.name.toList = d.name.toList :=
      String.toList_ofList.symm.trans (congrArg String.toList hname)
    have hcloses := not_mem_of_doubled_eq hschemaDoubled
    have hopens : '[' ∉ d.schema.toList := by
      have hdepth := foldl_bracketStep_of_splitQualified? hsplit
      rw [hbefore, hschemaDoubled, List.cons_append, List.foldl_cons, List.foldl_append,
        foldl_bracketStep_of_not_mem hcloses] at hdepth
      simp only [List.foldl_cons, List.foldl_nil, bracketStep] at hdepth
      exact List.count_eq_zero.mp (by simpa using hdepth)
    exact ⟨fun c hc => ⟨fun hopen => hopens (hopen ▸ hc), fun hclose => hcloses (hclose ▸ hc)⟩,
      fun c hc hclose => not_mem_of_doubled_eq hnameDoubled (hclose ▸ hc)⟩
  · rintro ⟨hschema, hname⟩
    rw [parseQualified?_quoted hschema, doubled_of_not_mem fun hmem => hname _ hmem rfl,
      String.ofList_toList]

/-- A closing bracket comes back twice, an opening one in the schema hides the dot, and a closing
one before a dot inside the schema lets the dot cut it. -/
theorem quoted_not_read_back :
    quoted ⟨"odd]schema", "p"⟩ = "[odd]]schema].[p]" ∧
      parseQualified? (quoted ⟨"odd]schema", "p"⟩) = some ⟨"odd]]schema", "p"⟩ ∧
      parseQualified? (quoted ⟨"dbo", "a]b"⟩) = some ⟨"dbo", "a]]b"⟩ ∧
      parseQualified? (quoted ⟨"a[b", "p"⟩) = none ∧
      parseQualified? (quoted ⟨"a].b", "p"⟩) = some ⟨"a]", "b].[p]"⟩ := by
  decide +kernel

end Descriptor

end SqlSnapshot
