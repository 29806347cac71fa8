import SqlSnapshot.Json.Decode
import SqlSnapshot.Proofs.Json.RoundTrip

/-!
# Written records

A record that is written with its own names is read with all of its fields; a list is read item by
item.  `IsPlain` holds of a record when it holds of its fields.
-/

namespace SqlSnapshot.Json

variable {α : Type}

/-! ## Plain values -/

theorem isPlain_text (depth : Nat) (s : String) : IsPlain depth (.text s) := by
  simp [IsPlain]

theorem isPlain_ofList
    {depth : Nat} {write : α → Json} {as : List α} (h : ∀ a ∈ as, IsPlain depth (write a)) :
    IsPlain (depth + 1) (ofList write as) := by
  simp only [ofList, IsPlain, List.mem_map]
  rintro v ⟨a, ha, rfl⟩
  exact h a ha

theorem isPlain_field
    {depth : Nat} {name : String} {value : Json} (h : IsPlain depth value) {m : String × Json}
    (hm : m ∈ field name value) :
    IsPlain depth m.2 := by
  rw [field, List.mem_singleton] at hm
  rw [hm]
  exact h

theorem isPlain_fieldSome
    {depth : Nat} {name : String} {value : Option α} {write : α → Json}
    (h : ∀ a, IsPlain depth (write a)) {m : String × Json} (hm : m ∈ fieldSome name value write) :
    IsPlain depth m.2 := by
  cases value with
  | none => simp [fieldSome] at hm
  | some a =>
    rw [fieldSome, List.mem_singleton] at hm
    rw [hm]
    exact h a

/-! ## Nesting -/

mutual

/-- How deep arrays and objects are nested in the value. -/
def nesting : Json → Nat
  | .array items => itemsNesting items + 1
  | .object members => membersNesting members + 1
  | _ => 0

def itemsNesting : List Json → Nat
  | [] => 0
  | v :: vs => max v.nesting (itemsNesting vs)

def membersNesting : List (String × Json) → Nat
  | [] => 0
  | (_, v) :: ms => max v.nesting (membersNesting ms)

end

theorem nesting_le_itemsNesting
    {items : List Json} {v : Json} (h : v ∈ items) :
    v.nesting ≤ itemsNesting items := by
  induction items with
  | nil => contradiction
  | cons u items ih =>
    rw [itemsNesting]
    rcases List.mem_cons.mp h with rfl | h
    · exact Nat.le_max_left _ _
    · exact Nat.le_trans (ih h) (Nat.le_max_right _ _)

theorem nesting_le_membersNesting
    {members : List (String × Json)} {m : String × Json} (h : m ∈ members) :
    m.2.nesting ≤ membersNesting members := by
  induction members with
  | nil => contradiction
  | cons n members ih =>
    rw [membersNesting]
    rcases List.mem_cons.mp h with rfl | h
    · exact Nat.le_max_left _ _
    · exact Nat.le_trans (ih h) (Nat.le_max_right _ _)

theorem nesting_lt_of_mem_member
    {members : List (String × Json)} {name : String} {items : List Json} {v : Json}
    (hmember : (name, array items) ∈ members) (hv : v ∈ items) :
    v.nesting < (object members).nesting := by
  have hitem := nesting_le_itemsNesting hv
  have harray : (array items).nesting ≤ membersNesting members :=
    nesting_le_membersNesting hmember
  simp only [nesting] at harray ⊢
  omega

/-- The value is written in full, however deep it is nested. -/
inductive IsWritable : Json → Prop where
  | null : IsWritable .null
  | bool (b : Bool) : IsWritable (.bool b)
  | int {n : Int} (h : n.natAbs < UInt64.size) : IsWritable (.int n)
  | text (s : String) : IsWritable (.text s)
  | array {items : List Json} (h : ∀ v ∈ items, IsWritable v) : IsWritable (.array items)
  | object {members : List (String × Json)} (h : ∀ m ∈ members, IsWritable m.2) :
      IsWritable (.object members)

theorem IsWritable.isPlain
    {v : Json} {depth : Nat} (h : IsWritable v) (hdepth : v.nesting ≤ depth) :
    IsPlain depth v := by
  induction h generalizing depth with
  | null => simp only [IsPlain]
  | bool b => simp only [IsPlain]
  | int h => simpa only [IsPlain] using h
  | text s => exact isPlain_text depth s
  | array h ih =>
    rw [nesting] at hdepth
    obtain ⟨depth, rfl⟩ : ∃ k, depth = k + 1 := Nat.exists_eq_succ_of_ne_zero (by omega)
    intro v hv
    have hle := nesting_le_itemsNesting hv
    exact ih v hv (by omega)
  | object h ih =>
    rw [nesting] at hdepth
    obtain ⟨depth, rfl⟩ : ∃ k, depth = k + 1 := Nat.exists_eq_succ_of_ne_zero (by omega)
    intro m hm
    have hle := nesting_le_membersNesting hm
    exact ih m hm (by omega)

/-- The values of all members are written in full. -/
def AreWritable (members : List (String × Json)) : Prop :=
  ∀ m ∈ members, IsWritable m.2

theorem areWritable_append
    {members others : List (String × Json)} (h : AreWritable members)
    (hothers : AreWritable others) :
    AreWritable (members ++ others) :=
  List.forall_mem_append.mpr ⟨h, hothers⟩

theorem areWritable_field
    (name : String) {value : Json} (h : IsWritable value) :
    AreWritable (field name value) := by
  intro m hm
  rw [field, List.mem_singleton] at hm
  rw [hm]
  exact h

theorem areWritable_fieldSome
    (name : String) {value : Option α} {write : α → Json}
    (h : ∀ a, value = some a → IsWritable (write a)) :
    AreWritable (fieldSome name value write) := by
  cases value with
  | none => exact List.forall_mem_nil _
  | some a => exact areWritable_field name (h a rfl)

theorem areWritable_fieldTrue (name : String) (value : Bool) :
    AreWritable (fieldTrue name value) := by
  cases value with
  | false => exact List.forall_mem_nil _
  | true => exact areWritable_field name (.bool true)

theorem isWritable_ofList
    {write : α → Json} {as : List α} (h : ∀ a ∈ as, IsWritable (write a)) :
    IsWritable (ofList write as) := by
  refine .array fun v hv => ?_
  obtain ⟨a, ha, rfl⟩ := List.mem_map.mp hv
  exact h a ha

theorem areWritable_fieldItems
    (name : String) {as : List α} {write : α → Json} (h : ∀ a ∈ as, IsWritable (write a)) :
    AreWritable (fieldItems name as write) := by
  cases as with
  | nil => exact List.forall_mem_nil _
  | cons a as => exact areWritable_field name (isWritable_ofList h)

/-! ## Records -/

/-- The members of an object as a record. -/
def recordOf (members : List (String × Json)) : Record :=
  fun name => members.lookup name

theorem sublist_names_field
    (name : String) (value : Json) :
    ((field name value).map (·.1)).Sublist [name] :=
  List.Sublist.refl [name]

theorem sublist_names_fieldSome
    (name : String) (value : Option α) (write : α → Json) :
    ((fieldSome name value write).map (·.1)).Sublist [name] := by
  cases value with
  | none => exact List.nil_sublist [name]
  | some a => exact List.Sublist.refl [name]

theorem sublist_names_fieldTrue
    (name : String) (value : Bool) :
    ((fieldTrue name value).map (·.1)).Sublist [name] := by
  cases value with
  | false => exact List.nil_sublist [name]
  | true => exact List.Sublist.refl [name]

theorem sublist_names_fieldItems
    (name : String) (as : List α) (write : α → Json) :
    ((fieldItems name as write).map (·.1)).Sublist [name] := by
  cases as with
  | nil => exact List.nil_sublist [name]
  | cons a as => exact List.Sublist.refl [name]

/-- A record with distinct names, all of them known, is read field by field. -/
theorem asRecord?_object
    {names : List String} {members : List (String × Json)}
    (h : (members.map (·.1)).Sublist names) (hnames : names.Nodup) :
    asRecord? names (.object members) = some (recordOf members) := by
  have hknown : members.filter (fun m => names.contains m.1) = members := by
    rw [List.filter_eq_self]
    intro m hm
    simpa using h.subset (List.mem_map_of_mem hm)
  have hnodup : (members.map (·.1)).Nodup := hnames.sublist h
  simp only [asRecord?, hknown, hnodup, if_true]
  rfl

theorem recordOf_append
    (members others : List (String × Json)) (key : String) :
    recordOf (members ++ others) key = (recordOf members key).or (recordOf others key) :=
  List.lookup_append

theorem recordOf_field
    (name key : String) (value : Json) :
    recordOf (field name value) key = if key = name then some value else none := by
  simp only [recordOf, field, List.lookup_cons, List.lookup_nil]
  by_cases h : key = name
  · simp [h]
  · have hne : (key == name) = false := by simpa using h
    simp [hne, h]

theorem recordOf_fieldSome
    (name key : String) (value : Option α) (write : α → Json) :
    recordOf (fieldSome name value write) key = if key = name then value.map write else none := by
  cases value with
  | none => simp [fieldSome, recordOf]
  | some a =>
    rw [fieldSome, ← field, recordOf_field]
    simp

theorem recordOf_fieldTrue
    (name key : String) (value : Bool) :
    recordOf (fieldTrue name value) key =
      if key = name then (if value then some (.bool true) else none) else none := by
  cases value with
  | false => simp [fieldTrue, recordOf]
  | true => exact recordOf_field name key (.bool true)

theorem recordOf_fieldItems
    (name key : String) (as : List α) (write : α → Json) :
    recordOf (fieldItems name as write) key =
      if key = name then (if as.isEmpty then none else some (ofList write as)) else none := by
  cases as with
  | nil => simp [fieldItems, recordOf]
  | cons a as => exact recordOf_field name key (ofList write (a :: as))

theorem required_of_eq
    {r : Record} {name : String} {value : Json} {read : Json → Option α} {a : α}
    (hfield : r name = some value) (hread : read value = some a) :
    r.required name read = some a := by
  rw [Record.required, hfield, Option.bind_eq_bind, Option.bind_some, hread]

theorem required_text
    {r : Record} {name s : String} (hfield : r name = some (.text s)) :
    r.required name asText? = some s :=
  required_of_eq hfield rfl

theorem required_bool
    {r : Record} {name : String} {b : Bool} (hfield : r name = some (.bool b)) :
    r.required name asBool? = some b :=
  required_of_eq hfield rfl

theorem withDefault_of_eq
    {r : Record} {name : String} {value : Json} {read : Json → Option α} {a : α} (dflt : α)
    (hfield : r name = some value) (hread : read value = some a) :
    r.withDefault name dflt read = some a := by
  rw [Record.withDefault, hfield]
  exact hread

/-- A field that is written only when there is a value is read as it was. -/
theorem maybe_of_eq_map
    {r : Record} {name : String} {value : Option α} {write : α → Json} {read : Json → Option α}
    (hfield : r name = value.map write)
    (hread : ∀ a, value = some a → write a ≠ .null ∧ read (write a) = some a) :
    r.maybe name read = some value := by
  cases value with
  | none =>
    rw [Option.map_none] at hfield
    simp only [Record.maybe, hfield]
  | some a =>
    obtain ⟨hne, hread⟩ := hread a rfl
    rw [Option.map_some] at hfield
    unfold Record.maybe
    rw [hfield]
    split
    · contradiction
    · rename_i heq
      exact absurd (Option.some.inj heq) hne
    · rename_i heq
      rw [← Option.some.inj heq, hread]
      rfl

theorem maybe_text
    {r : Record} {name : String} {value : Option String} (hfield : r name = value.map .text) :
    r.maybe name asText? = some value :=
  maybe_of_eq_map hfield fun _ _ => ⟨by simp, rfl⟩

theorem maybe_bool
    {r : Record} {name : String} {value : Option Bool} (hfield : r name = value.map .bool) :
    r.maybe name asBool? = some value :=
  maybe_of_eq_map hfield fun _ _ => ⟨by simp, rfl⟩

/-- A field that is written only when it is true is read as it was. -/
theorem withDefault_false
    {r : Record} {name : String} {value : Bool}
    (hfield : r name = if value then some (.bool true) else none) :
    r.withDefault name false asBool? = some value := by
  rw [Record.withDefault, hfield]
  cases value <;> rfl

/-! ## Lists -/

theorem asList?_ofList
    {write : α → Json} {read : Json → Option α} {as : List α}
    (h : ∀ a ∈ as, read (write a) = some a) :
    asList? read (ofList write as) = some as := by
  simp only [asList?, ofList]
  induction as with
  | nil => rfl
  | cons a as ih =>
    have hrest := ih fun b hb => h b (List.mem_cons_of_mem _ hb)
    simp [List.mapM_cons, h a List.mem_cons_self, hrest]

/-- A list that is written only when it has items is read as it was. -/
theorem withDefault_nil
    {r : Record} {name : String} {as : List α} {write : α → Json} {read : Json → Option α}
    (hfield : r name = if as.isEmpty then none else some (ofList write as))
    (hread : ∀ a ∈ as, read (write a) = some a) :
    r.withDefault name [] (asList? read) = some as := by
  rw [Record.withDefault, hfield]
  cases as with
  | nil => rfl
  | cons a as => exact asList?_ofList hread

theorem exists_of_mem_mapM
    {read : Json → Option α} {items : List Json} {as : List α} (h : items.mapM read = some as)
    {a : α} (ha : a ∈ as) :
    ∃ v ∈ items, read v = some a := by
  induction items generalizing as with
  | nil =>
    simp only [List.mapM_nil, Option.pure_def, Option.some.injEq] at h
    simp [← h] at ha
  | cons v items ih =>
    simp only [List.mapM_cons, Option.bind_eq_bind, Option.bind_eq_some_iff, Option.pure_def,
      Option.some.injEq] at h
    obtain ⟨b, hb, bs, hbs, rfl⟩ := h
    rcases List.mem_cons.mp ha with rfl | ha
    · exact ⟨v, List.mem_cons_self, hb⟩
    · obtain ⟨u, hu, hread⟩ := ih hbs ha
      exact ⟨u, List.mem_cons_of_mem _ hu, hread⟩

theorem exists_of_mem_asList?
    {read : Json → Option α} {v : Json} {as : List α} (h : asList? read v = some as) {a : α}
    (ha : a ∈ as) :
    ∃ u, read u = some a := by
  unfold asList? at h
  split at h
  · obtain ⟨u, -, hu⟩ := exists_of_mem_mapM h ha
    exact ⟨u, hu⟩
  · contradiction

end SqlSnapshot.Json
