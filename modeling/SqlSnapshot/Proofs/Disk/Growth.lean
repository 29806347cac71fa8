import SqlSnapshot.Disk
import SqlSnapshot.Proofs.Disk.Paths

/-!
# How a disk grows

What a build does to a disk removes nothing: directories stay directories and files stay files, and
only the files at the places that were written may have another content.  A path that leads
somewhere therefore leads there ever after, and where it leads can be read off its names.
-/

namespace SqlSnapshot.Disk

variable {d d' d'' : Disk} {at_ l : Location} {name path : String} {names : List String}
  {changed : Location → Prop} {content : ByteArray}

/-! ## Nodes -/

theorem lookup_putNode
    (l l' : Location) (n : Node) (nodes : List (Location × Node)) :
    (putNode l n nodes).lookup l' = if l' = l then some n else nodes.lookup l' := by
  induction nodes with
  | nil =>
    simp only [putNode, List.lookup_cons, List.lookup_nil]
    by_cases h : l' = l
    · simp [h]
    · have hne : (l' == l) = false := by simpa using h
      simp [h, hne]
  | cons node nodes ih =>
    obtain ⟨k, m⟩ := node
    simp only [putNode]
    by_cases hk : k = l
    · simp only [hk, if_true, List.lookup_cons]
      by_cases h : l' = l
      · simp [h]
      · have hne : (l' == l) = false := by simpa using h
        simp [h, hne]
    · simp only [hk, if_false, List.lookup_cons, ih]
      by_cases h : l' = l
      · have hne : (l == k) = false := by simpa using Ne.symm hk
        simp [h, hne]
      · simp [h]

theorem node?_put
    (hl : l ≠ []) (d : Disk) (n : Node) (l' : Location) :
    (d.put l n).node? l' = if l' = l then some n else d.node? l' := by
  by_cases hroot : l' = []
  · have hne : l' ≠ l := fun h => hl (h ▸ hroot)
    simp [node?, hroot, Ne.symm hl]
  · simp only [node?, hroot, if_false, put, lookup_putNode]

theorem isDirectory_iff : d.isDirectory l = true ↔ d.node? l = some .directory := by
  unfold isDirectory
  split
  · rename_i h
    simp [h]
  · rename_i h
    simpa using h

/-! ## Growing -/

/-- The second disk has every node of the first, and all of its files are those of the first unless
they are changed. -/
structure Grows (changed : Location → Prop) (d d' : Disk) : Prop where
  here : d'.here = d.here
  directory : ∀ l, d.node? l = some .directory → d'.node? l = some .directory
  file : ∀ l content, d.node? l = some (.file content) →
    ∃ content', d'.node? l = some (.file content')
  unchanged : ∀ l content, ¬ changed l → d'.node? l = some (.file content) →
    d.node? l = some (.file content)

namespace Grows

theorem refl (changed : Location → Prop) (d : Disk) : Grows changed d d :=
  ⟨rfl, fun _ h => h, fun _ content h => ⟨content, h⟩, fun _ _ _ h => h⟩

theorem trans
    (h₁ : Grows changed d d') (h₂ : Grows changed d' d'') :
    Grows changed d d'' := by
  refine ⟨h₂.here.trans h₁.here, fun l h => h₂.directory l (h₁.directory l h), ?_, ?_⟩
  · intro l content h
    obtain ⟨content₁, hfile₁⟩ := h₁.file l content h
    exact h₂.file l content₁ hfile₁
  · intro l content hne h
    exact h₁.unchanged l content hne (h₂.unchanged l content hne h)

theorem mono
    {changed' : Location → Prop} (h : Grows changed d d') (himp : ∀ l, changed l → changed' l) :
    Grows changed' d d' :=
  ⟨h.here, h.directory, h.file,
    fun l content hne => h.unchanged l content fun hl => hne (himp l hl)⟩

theorem node?_eq
    (h : Grows changed d d') (hne : ¬ changed l) (hfile : d.node? l = some (.file content)) :
    d'.node? l = some (.file content) := by
  obtain ⟨content', hfile'⟩ := h.file l content hfile
  have hsame := h.unchanged l content' hne hfile'
  rw [hfile] at hsame
  rw [hfile', hsame]

end Grows

/-- What file there is at the location on either disk, there is on the other. -/
def KeepsFile (l : Location) (d d' : Disk) : Prop :=
  ∀ content, d'.node? l = some (.file content) ↔ d.node? l = some (.file content)

theorem Grows.keepsFile
    (h : Grows changed d d') (hne : ¬ changed l) :
    KeepsFile l d d' :=
  fun content => ⟨h.unchanged l content hne, h.node?_eq hne⟩

theorem grows_put_directory
    (hl : l ≠ []) (h : d.node? l = none) (changed : Location → Prop) :
    Grows changed d (d.put l .directory) := by
  have hne : ∀ l' n, d.node? l' = some n → l' ≠ l := by
    rintro l' n hnode rfl
    rw [h] at hnode
    contradiction
  refine ⟨rfl, ?_, ?_, ?_⟩
  · intro l' hdir
    rw [node?_put hl, if_neg (hne l' _ hdir)]
    exact hdir
  · intro l' content hfile
    rw [node?_put hl, if_neg (hne l' _ hfile)]
    exact ⟨content, hfile⟩
  · intro l' content _ hfile
    rw [node?_put hl] at hfile
    split at hfile
    · simp at hfile
    · exact hfile

theorem grows_put_file
    (hl : l ≠ []) (h : d.isDirectory l = false) (content : ByteArray) :
    Grows (· = l) d (d.put l (.file content)) := by
  refine ⟨rfl, ?_, ?_, ?_⟩
  · intro l' hdir
    have hne : l' ≠ l := by
      rintro rfl
      rw [isDirectory_iff.mpr hdir] at h
      contradiction
    rw [node?_put hl, if_neg hne]
    exact hdir
  · intro l' content' hfile
    by_cases heq : l' = l
    · rw [node?_put hl, if_pos heq]
      exact ⟨content, rfl⟩
    · rw [node?_put hl, if_neg heq]
      exact ⟨content', hfile⟩
  · intro l' content' hne hfile
    rwa [node?_put hl, if_neg hne] at hfile

/-! ## Where names lead -/

/-- The place to which a name leads from a directory. -/
def next (at_ : Location) (name : String) : Location :=
  if name = "." then at_ else if name = ".." then at_.dropLast else at_ ++ [name]

/-- The name is not too long for a node. -/
def Fits (name : String) : Prop :=
  name = "." ∨ name = ".." ∨ name.utf8ByteSize ≤ nameLimit

/-- The place to which a path leads when all nodes on the way are directories. -/
def place (d : Disk) (path : String) : Location :=
  (Path.names path).foldl next (d.origin path)

theorem next_name
    (hname : Path.IsName name) (at_ : Location) :
    next at_ name = at_ ++ [name] := by
  simp [next, hname.ne_here, hname.ne_above]

theorem walk_cons_eq_ok_iff :
    d.walk at_ (name :: names) = .ok l ↔
      d.node? at_ = some .directory ∧ Fits name ∧ d.walk (next at_ name) names = .ok l := by
  rw [walk]
  cases hnode : d.node? at_ with
  | none => simp
  | some node =>
    cases node with
    | file content => simp
    | directory =>
      by_cases hhere : name = "."
      · simp [hhere, Fits, next]
      · by_cases habove : name = ".."
        · simp [habove, Fits, next]
        · by_cases hlimit : nameLimit < name.utf8ByteSize
          · simp [hhere, habove, hlimit, Fits, Nat.not_le_of_lt hlimit]
          · simp [hhere, habove, hlimit, Fits, next, Nat.le_of_not_lt hlimit]

theorem eq_foldl_of_walk
    (h : d.walk at_ names = .ok l) :
    l = names.foldl next at_ := by
  induction names generalizing at_ with
  | nil =>
    cases h
    rfl
  | cons name names ih =>
    rw [walk_cons_eq_ok_iff] at h
    exact ih h.2.2

/-- Names that lead somewhere lead there on every disk that grew from this one. -/
theorem walk_of_grows
    (hgrows : Grows changed d d') (h : d.walk at_ names = .ok l) :
    d'.walk at_ names = .ok l := by
  induction names generalizing at_ with
  | nil => exact h
  | cons name names ih =>
    rw [walk_cons_eq_ok_iff] at h ⊢
    obtain ⟨hdir, hfits, hrest⟩ := h
    exact ⟨hgrows.directory at_ hdir, hfits, ih hrest⟩

theorem walk_append_eq_ok_iff
    (hwalk : d.walk at_ names = .ok l) {names' : List String} {l' : Location} :
    d.walk at_ (names ++ names') = .ok l' ↔ d.walk l names' = .ok l' := by
  induction names generalizing at_ with
  | nil =>
    cases hwalk
    rfl
  | cons name names ih =>
    rw [walk_cons_eq_ok_iff] at hwalk
    obtain ⟨hdir, hfits, hrest⟩ := hwalk
    rw [List.cons_append, walk_cons_eq_ok_iff, ih hrest]
    simp [hdir, hfits]

theorem isDirectory_of_walk
    (h : d.walk at_ names = .ok l) (hl : d.node? l = some .directory) :
    d.node? at_ = some .directory := by
  cases names with
  | nil =>
    cases h
    exact hl
  | cons name names =>
    rw [walk_cons_eq_ok_iff] at h
    exact h.1

/-! ## Making directories -/

theorem exists_of_makeAlong_cons
    (h : d.makeAlong at_ (name :: names) = (d', .ok l)) :
    ∃ d₁, d.node? at_ = some .directory ∧ Fits name ∧ (∀ changed, Grows changed d d₁) ∧
      (Path.IsName name → d₁.node? (next at_ name) = some .directory) ∧
      d₁.makeAlong (next at_ name) names = (d', .ok l) := by
  rw [makeAlong] at h
  by_cases hdir : d.isDirectory at_ = true
  · have hnode := isDirectory_iff.mp hdir
    rw [if_pos hdir] at h
    by_cases hhere : name = "."
    · rw [if_pos hhere] at h
      refine ⟨d, hnode, Or.inl hhere, fun _ => .refl _ d,
        fun hname => absurd hhere hname.ne_here, ?_⟩
      rwa [next, if_pos hhere]
    · rw [if_neg hhere] at h
      by_cases habove : name = ".."
      · rw [if_pos habove] at h
        refine ⟨d, hnode, Or.inr (Or.inl habove), fun _ => .refl _ d,
          fun hname => absurd habove hname.ne_above, ?_⟩
        rwa [next, if_neg hhere, if_pos habove]
      · rw [if_neg habove] at h
        have hnext : next at_ name = at_ ++ [name] := by rw [next, if_neg hhere, if_neg habove]
        rw [hnext]
        by_cases hlimit : nameLimit < name.utf8ByteSize
        · simp [hlimit] at h
        · rw [if_neg hlimit] at h
          have hfits : Fits name := Or.inr (Or.inr (Nat.le_of_not_lt hlimit))
          dsimp only at h
          split at h
          · rename_i hthere
            exact ⟨d, hnode, hfits, fun _ => .refl _ d, fun _ => hthere, h⟩
          · simp at h
          · rename_i hnone
            refine ⟨_, hnode, hfits, grows_put_directory (by simp) hnone, fun _ => ?_, h⟩
            rw [node?_put (by simp), if_pos rfl]
  · simp [hdir] at h

/-- Directories that were made before a failure stay, and nothing else is changed. -/
theorem grows_makeAlong
    (changed : Location → Prop) (d : Disk) (at_ : Location) (names : List String) :
    Grows changed d (d.makeAlong at_ names).1 := by
  fun_induction makeAlong d at_ names with
  | case1 d at_ => exact .refl changed d
  | case2 d at_ names hdir ih => exact ih
  | case3 d at_ names hdir hne ih => exact ih
  | case4 d at_ name names hdir hhere habove hlimit => exact .refl changed d
  | case5 d at_ name names hdir hhere habove hlimit next hnext ih => exact ih
  | case6 d at_ name names hdir hhere habove hlimit next content hnext => exact .refl changed d
  | case7 d at_ name names hdir hhere habove hlimit next hnext ih =>
    exact (grows_put_directory (by simp [next]) hnext changed).trans ih
  | case8 d at_ name names hdir => exact .refl changed d

theorem grows_of_makeAlong
    (h : d.makeAlong at_ names = (d', .ok l)) (changed : Location → Prop) :
    Grows changed d d' := by
  have hgrows := grows_makeAlong changed d at_ names
  rwa [h] at hgrows

theorem walk_of_makeAlong
    (h : d.makeAlong at_ names = (d', .ok l)) :
    d'.walk at_ names = .ok l := by
  induction names generalizing d at_ with
  | nil =>
    cases h
    rfl
  | cons name names ih =>
    have hgrows := grows_of_makeAlong h fun _ => False
    obtain ⟨d₁, hdir, hfits, -, -, hrest⟩ := exists_of_makeAlong_cons h
    rw [walk_cons_eq_ok_iff]
    exact ⟨hgrows.directory at_ hdir, hfits, ih hrest⟩

/-- A directory that was made under its own name is one. -/
theorem isDirectory_of_makeAlong
    (hname : Path.IsName name) (h : d.makeAlong at_ (names ++ [name]) = (d', .ok l)) :
    d'.node? l = some .directory := by
  induction names generalizing d at_ with
  | nil =>
    obtain ⟨d₁, -, -, -, hmade, hrest⟩ := exists_of_makeAlong_cons h
    cases hrest
    exact hmade hname
  | cons first names ih =>
    obtain ⟨d₁, -, -, -, -, hrest⟩ := exists_of_makeAlong_cons h
    exact ih hrest

theorem makeAlong_eq_self
    (h : d.walk at_ names = .ok l) (hl : d.node? l = some .directory) :
    d.makeAlong at_ names = (d, .ok l) := by
  induction names generalizing at_ with
  | nil =>
    cases h
    rfl
  | cons name names ih =>
    rw [walk_cons_eq_ok_iff] at h
    obtain ⟨hdir, hfits, hrest⟩ := h
    have hthere := isDirectory_of_walk hrest hl
    have hstep := ih hrest
    rw [makeAlong, if_pos (isDirectory_iff.mpr hdir)]
    by_cases hhere : name = "."
    · rw [if_pos hhere]
      rwa [next, if_pos hhere] at hstep
    · rw [if_neg hhere]
      by_cases habove : name = ".."
      · rw [if_pos habove]
        rwa [next, if_neg hhere, if_pos habove] at hstep
      · have hlimit : ¬ nameLimit < name.utf8ByteSize := by
          rcases hfits with hfits | hfits | hfits
          · exact absurd hfits hhere
          · exact absurd hfits habove
          · exact Nat.not_lt_of_le hfits
        rw [next, if_neg hhere, if_neg habove] at hthere hstep
        rw [if_neg habove, if_neg hlimit]
        simp only [hthere, hstep]

end SqlSnapshot.Disk
