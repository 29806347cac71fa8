import SqlSnapshot.Path

/-!
# Names of joined paths

Below a directory whose path does not end with a slash, a joined path has the names of the
directory and then its own.
-/

namespace SqlSnapshot.Path

/-- The path of a directory: not empty, and without a slash at its end. -/
def IsPlain (path : String) : Prop :=
  path ≠ "" ∧ path.toList.getLast? ≠ some '/'

/-- A name that leads from a directory to one of its nodes. -/
structure IsName (name : String) : Prop where
  ne_nil : name ≠ ""
  slashless : '/' ∉ name.toList
  ne_here : name ≠ "."
  ne_above : name ≠ ".."

variable {base name : String}

theorem IsPlain.isEmpty_eq
    (h : IsPlain base) :
    base.isEmpty = false :=
  String.isEmpty_eq_false_iff.mpr h.1

theorem splitBy_of_not_mem
    {p : Char → Bool} {cs : List Char} (h : ∀ c ∈ cs, p c = false) :
    Text.splitBy p cs = [cs] := by
  induction cs with
  | nil => rfl
  | cons c cs ih =>
    have hrest := ih fun d hd => h d (List.mem_cons_of_mem _ hd)
    simp [Text.splitBy, h c List.mem_cons_self, hrest]

theorem splitBy_append_cons
    {p : Char → Bool} {c : Char} (hc : p c = true) (cs ds : List Char) :
    Text.splitBy p (cs ++ c :: ds) = Text.splitBy p cs ++ Text.splitBy p ds := by
  induction cs with
  | nil => simp [Text.splitBy, hc]
  | cons e cs ih =>
    simp only [List.cons_append, Text.splitBy, ih]
    by_cases he : p e = true
    · simp [he]
    · simp only [he]
      cases hsplit : Text.splitBy p cs with
      | nil => exact absurd hsplit (Text.splitBy_ne_nil p cs)
      | cons piece pieces => rfl

theorem IsName.head?_ne
    (h : IsName name) :
    name.toList.head? ≠ some '/' := by
  intro hhead
  exact h.slashless (List.mem_of_head? hhead)

theorem IsName.getLast?_ne
    (h : IsName name) :
    name.toList.getLast? ≠ some '/' := by
  intro hlast
  exact h.slashless (List.mem_of_getLast? hlast)

theorem join_eq
    (hbase : IsPlain base) (hname : IsName name) :
    join base name = base ++ "/" ++ name := by
  have hempty : ¬ (base.isEmpty = true ∨ base.toList.getLast? = some '/') := by
    rintro (h | h)
    · exact hbase.1 (String.isEmpty_iff.mp h)
    · exact hbase.2 h
  rw [join, if_neg hname.head?_ne, if_neg hempty]

/-- Below any directory a name stands at the end of the path. -/
theorem isPlain_join
    (base : String) (hname : IsName name) :
    IsPlain (join base name) := by
  have hends : ∀ start : String, IsPlain (start ++ name) := by
    intro start
    constructor
    · intro h
      rw [String.append_eq_empty_iff] at h
      exact hname.ne_nil h.2
    · rw [String.toList_append, List.getLast?_append, Option.or_of_isSome]
      · exact hname.getLast?_ne
      · simpa using hname.ne_nil
  rw [join, if_neg hname.head?_ne]
  split
  · exact hends base
  · exact hends (base ++ "/")

theorem names_join
    (hbase : IsPlain base) (hname : IsName name) :
    names (join base name) = names base ++ [name] := by
  have hne : name.toList ≠ [] := by
    intro h
    exact hname.ne_nil (String.toList_eq_nil_iff.mp h)
  have htext : (join base name).toList = base.toList ++ '/' :: name.toList := by
    rw [join_eq hbase hname]
    simp
  have hplain := isPlain_join base hname
  have hslash : ∀ c ∈ name.toList, (c == '/') = false := by
    intro c hc
    rw [beq_eq_false_iff_ne]
    rintro rfl
    exact hname.slashless hc
  rw [names, names, if_neg hplain.2, if_neg hbase.2, Text.pieces, Text.pieces, htext,
    splitBy_append_cons (by decide), splitBy_of_not_mem hslash, List.filter_append,
    List.map_append]
  simp [hne]

theorem isAbsolute_join
    (hbase : IsPlain base) (hname : IsName name) :
    isAbsolute (join base name) = isAbsolute base := by
  rw [isAbsolute, isAbsolute, join_eq hbase hname, String.toList_append, String.toList_append,
    List.append_assoc, List.head?_append, Option.or_of_isSome]
  simpa using hbase.1

end SqlSnapshot.Path
