import SqlSnapshot.Proofs.Disk.Growth

/-!
# Reading and writing files

A file that is read goes on to be there, with its content unless it is written.  A file that is put
in place has its content, and no other file has another one.
-/

namespace SqlSnapshot.Disk

variable {d d' : Disk} {l : Location} {path base name file : String} {changed : Location → Prop}
  {content : ByteArray}

/-! ## Places -/

theorem place_congr
    (h : d'.here = d.here) (path : String) :
    d'.place path = d.place path := by
  simp only [place, origin, h]

theorem origin_join
    (d : Disk) (hbase : Path.IsPlain base) (hname : Path.IsName name) :
    d.origin (Path.join base name) = d.origin base := by
  simp only [origin, Path.isAbsolute_join hbase hname]

theorem place_join
    (d : Disk) (hbase : Path.IsPlain base) (hname : Path.IsName name) :
    d.place (Path.join base name) = d.place base ++ [name] := by
  rw [place, place, origin_join d hbase hname, Path.names_join hbase hname, List.foldl_append]
  exact next_name hname _

/-! ## Reading -/

theorem resolve_eq_ok_iff :
    d.resolve path = .ok l ↔
      path.isEmpty = false ∧ isUsable path = true ∧
        d.walk (d.origin path) (Path.names path) = .ok l := by
  unfold resolve
  split
  · rename_i hempty
    simp [hempty]
  · rename_i hempty
    split
    · rename_i husable
      simp [hempty, husable]
    · rename_i husable
      simp [husable]

theorem contentOf_eq_ok_iff :
    d.contentOf path = .ok content ↔
      ∃ l, d.resolve path = .ok l ∧ d.node? l = some (.file content) := by
  simp only [contentOf, find]
  cases d.resolve path with
  | error e => simp [bind, Except.bind]
  | ok l =>
    cases hnode : d.node? l with
    | none => simp [bind, Except.bind, hnode]
    | some node => cases node <;> simp [bind, Except.bind, hnode]

theorem isFile_iff : d.isFile path = true ↔ ∃ content, d.contentOf path = .ok content := by
  unfold isFile
  cases d.contentOf path with
  | error e => simp [Except.isOk, Except.toBool]
  | ok content => simp [Except.isOk, Except.toBool]

theorem resolve_of_grows
    (hgrows : Grows changed d d') (h : d.resolve path = .ok l) :
    d'.resolve path = .ok l := by
  rw [resolve_eq_ok_iff] at h ⊢
  obtain ⟨hempty, husable, hwalk⟩ := h
  refine ⟨hempty, husable, ?_⟩
  have horigin : d'.origin path = d.origin path := by simp only [origin, hgrows.here]
  rw [horigin]
  exact walk_of_grows hgrows hwalk

theorem eq_place_of_resolve
    (h : d.resolve path = .ok l) :
    l = d.place path :=
  eq_foldl_of_walk (resolve_eq_ok_iff.mp h).2.2

theorem contentOf_of_grows
    (hgrows : Grows changed d d') (hne : ¬ changed (d.place path))
    (h : d.contentOf path = .ok content) :
    d'.contentOf path = .ok content := by
  obtain ⟨l, hresolve, hnode⟩ := contentOf_eq_ok_iff.mp h
  rw [← eq_place_of_resolve hresolve] at hne
  apply contentOf_eq_ok_iff.mpr
  exact ⟨l, resolve_of_grows hgrows hresolve, hgrows.node?_eq hne hnode⟩

theorem isFile_of_grows
    (hgrows : Grows changed d d') (h : d.isFile path = true) :
    d'.isFile path = true := by
  obtain ⟨content, hcontent⟩ := isFile_iff.mp h
  obtain ⟨l, hresolve, hnode⟩ := contentOf_eq_ok_iff.mp hcontent
  obtain ⟨content', hnode'⟩ := hgrows.file l content hnode
  apply isFile_iff.mpr
  exact ⟨content', contentOf_eq_ok_iff.mpr ⟨l, resolve_of_grows hgrows hresolve, hnode'⟩⟩

/-! ## Directories -/

/-- The directory is there, and so are all directories on the way to it. -/
def HasDirectory (d : Disk) (path : String) : Prop :=
  isUsable path = true ∧ ∃ l, d.walk (d.origin path) (Path.names path) = .ok l ∧
    d.node? l = some .directory

theorem HasDirectory.of_grows
    (h : d.HasDirectory path) (hgrows : Grows changed d d') :
    d'.HasDirectory path := by
  obtain ⟨husable, l, hwalk, hdir⟩ := h
  have horigin : d'.origin path = d.origin path := by simp only [origin, hgrows.here]
  refine ⟨husable, l, ?_, hgrows.directory l hdir⟩
  rw [horigin]
  exact walk_of_grows hgrows hwalk

theorem makeDirectories_eq_ok
    (changed : Location → Prop) (hbase : Path.IsPlain base) (hname : Path.IsName name)
    (h : d.makeDirectories (Path.join base name) = (d', .ok l)) :
    Grows changed d d' ∧ d'.HasDirectory (Path.join base name) ∧
      d'.walk (d'.origin (Path.join base name)) (Path.names (Path.join base name)) = .ok l ∧
      d'.node? l = some .directory := by
  unfold makeDirectories at h
  split at h
  · rename_i husable
    have hgrows := grows_of_makeAlong h changed
    have hwalk := walk_of_makeAlong h
    rw [Path.names_join hbase hname] at h
    have hdir := isDirectory_of_makeAlong hname h
    have horigin : d'.origin (Path.join base name) = d.origin (Path.join base name) := by
      simp only [origin, hgrows.here]
    rw [← horigin] at hwalk
    exact ⟨hgrows, ⟨husable, l, hwalk, hdir⟩, hwalk, hdir⟩
  · simp at h

theorem grows_makeDirectories
    (changed : Location → Prop) (d : Disk) (path : String) :
    Grows changed d (d.makeDirectories path).1 := by
  unfold makeDirectories
  split
  · exact grows_makeAlong changed d _ _
  · exact .refl changed d

theorem HasDirectory.makeDirectories_eq
    (h : d.HasDirectory path) :
    d.makeDirectories path = (d, .ok (d.place path)) := by
  obtain ⟨husable, l, hwalk, hdir⟩ := h
  have hplace : d.place path = l := (eq_foldl_of_walk hwalk).symm
  rw [makeDirectories, if_pos husable, hplace]
  exact makeAlong_eq_self hwalk hdir

theorem HasDirectory.documents_ne_refused
    (h : d.HasDirectory path) (hpath : path.isEmpty = false) :
    d.documents path ≠ .error .refused := by
  obtain ⟨husable, l, hwalk, hdir⟩ := h
  have hresolve : d.resolve path = .ok l := resolve_eq_ok_iff.mpr ⟨hpath, husable, hwalk⟩
  simp [documents, hresolve, bind, Except.bind, hdir]

/-! ## Putting files in place -/

/-- A file put in place has its content, and nothing else is changed. -/
theorem replaceFile_eq_ok
    (hbase : Path.IsPlain base) (hname : Path.IsName name) (hfile : Path.IsName file)
    (h : d.replaceFile (Path.join base name) file content = (d', .ok ())) :
    Grows (· = d.place (Path.join (Path.join base name) file)) d d' ∧
      d'.contentOf (Path.join (Path.join base name) file) = .ok content := by
  unfold replaceFile at h
  split at h
  · simp at h
  · rename_i d₁ parent hmade
    have hplain := Path.isPlain_join base hname
    obtain ⟨hgrows, -, hwalk, hdir⟩ :=
      makeDirectories_eq_ok (· = d.place (Path.join (Path.join base name) file)) hbase hname hmade
    have hparent : parent = d.place (Path.join base name) := by
      rw [eq_foldl_of_walk hwalk, ← place_congr hgrows.here]
      rfl
    dsimp only at h
    split at h
    · simp at h
    · rename_i hrefused
      simp only [not_or, Bool.not_eq_true', Bool.not_eq_false] at hrefused
      obtain ⟨-, husable, hlimit, hnot⟩ := hrefused
      simp only [Prod.mk.injEq, and_true] at h
      subst h
      have hplace : parent ++ [file] = d.place (Path.join (Path.join base name) file) := by
        rw [place_join d hplain hfile, hparent]
      have hput := grows_put_file (d := d₁) (l := parent ++ [file]) (by simp) (by simpa using hnot)
        content
      have hwalk' : d₁.walk (d₁.origin (Path.join (Path.join base name) file))
          (Path.names (Path.join (Path.join base name) file)) = .ok (parent ++ [file]) := by
        rw [origin_join d₁ hplain hfile, Path.names_join hplain hfile,
          walk_append_eq_ok_iff hwalk, walk_cons_eq_ok_iff, next_name hfile]
        exact ⟨hdir, Or.inr (Or.inr (Nat.le_of_not_lt hlimit)), rfl⟩
      have hresolve : (d₁.put (parent ++ [file]) (.file content)).resolve
          (Path.join (Path.join base name) file) = .ok (parent ++ [file]) := by
        apply resolve_of_grows hput
        rw [resolve_eq_ok_iff]
        exact ⟨(Path.isPlain_join _ hfile).isEmpty_eq, husable, hwalk'⟩
      refine ⟨hgrows.trans (hput.mono fun l hl => hl.trans hplace), ?_⟩
      rw [contentOf_eq_ok_iff]
      refine ⟨_, hresolve, ?_⟩
      rw [node?_put (by simp), if_pos rfl]

/-- Where a file cannot be put in place, only directories were made. -/
theorem replaceFile_eq_error
    {directory : String} {e : DiskError}
    (h : d.replaceFile directory file content = (d', .error e)) (changed : Location → Prop) :
    Grows changed d d' := by
  have hmade := grows_makeDirectories changed d directory
  unfold replaceFile at h
  split at h
  · rename_i d₁ e' hfailed
    cases h
    rwa [hfailed] at hmade
  · rename_i d₁ parent hdirectory
    dsimp only at h
    split at h
    · cases h
      rwa [hdirectory] at hmade
    · cases h

/-- Whether or not the file can be put in place, nothing else is changed. -/
theorem grows_replaceFile
    (hbase : Path.IsPlain base) (hname : Path.IsName name) (hfile : Path.IsName file)
    (d : Disk) (content : ByteArray) :
    Grows (· = d.place (Path.join (Path.join base name) file)) d
      (d.replaceFile (Path.join base name) file content).1 := by
  cases hreplaced : d.replaceFile (Path.join base name) file content with
  | mk d' outcome =>
    cases outcome with
    | ok u => exact (replaceFile_eq_ok hbase hname hfile hreplaced).1
    | error e => exact replaceFile_eq_error hreplaced _

/-- A file of the name can be put in place in the directory. -/
structure Takes (d : Disk) (directory name : String) : Prop where
  there : d.HasDirectory directory
  draft : isUsable (Path.join directory draftName) = true
  usable : isUsable (Path.join directory name) = true
  limit : name.utf8ByteSize ≤ nameLimit
  free : d.isDirectory (d.place directory ++ [name]) = false

theorem Takes.replaceFile_eq
    {directory : String} (h : d.Takes directory name) (content : ByteArray) :
    d.replaceFile directory name content =
      (d.put (d.place directory ++ [name]) (.file content), .ok ()) := by
  have hlimit : ¬ nameLimit < name.utf8ByteSize := Nat.not_lt_of_le h.limit
  simp [replaceFile, h.there.makeDirectories_eq, h.draft, h.usable, h.free, hlimit]

theorem Takes.put
    {directory : String} (h : d.Takes directory name) (hl : l ≠ [])
    (hfree : d.isDirectory l = false) (content : ByteArray) :
    (d.put l (.file content)).Takes directory name := by
  have hgrows := grows_put_file hl hfree content
  refine ⟨h.there.of_grows hgrows, h.draft, h.usable, h.limit, ?_⟩
  rw [place_congr hgrows.here, Bool.eq_false_iff]
  intro hdir
  have hnode := isDirectory_iff.mp hdir
  rw [node?_put hl] at hnode
  split at hnode
  · cases hnode
  · have hfree' := h.free
    rw [isDirectory_iff.mpr hnode] at hfree'
    contradiction

end SqlSnapshot.Disk
