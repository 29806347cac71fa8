import Mathlib.Data.List.Nodup
import SqlSnapshot.Proofs.Disk.Files

/-!
# Disks as file trees

On a disk of a file system no two nodes stand in one place, and no name holds a zero character.
Whatever is made, put in place, written or deleted, and whether or not it succeeds, a disk that was
a tree stays one.
-/

namespace SqlSnapshot.Disk

/-- The names lead through a file system: none of them holds a zero character. -/
def IsZeroFree (l : Location) : Prop :=
  ∀ name ∈ l, '\x00' ∉ name.toList

/-- A disk as a file system has it. -/
structure IsTree (d : Disk) : Prop where
  distinct : (d.nodes.map (·.1)).Nodup
  zeroFree : ∀ node ∈ d.nodes, IsZeroFree node.1
  here : IsZeroFree d.here

variable {d : Disk} {l at_ : Location} {n : Node} {name path : String} {names : List String}

/-! ## Nodes -/

theorem IsTree.mem_nodes_iff
    (h : d.IsTree) (hl : l ≠ []) :
    (l, n) ∈ d.nodes ↔ d.node? l = some n := by
  rw [node?, if_neg hl]
  constructor
  · intro hmem
    obtain ⟨before, after, hnodes⟩ := List.append_of_mem hmem
    refine List.lookup_eq_some_iff.mpr ⟨before, after, hnodes, fun node hnode => ?_⟩
    have hdistinct := h.distinct
    rw [hnodes, List.map_append, List.nodup_append] at hdistinct
    have hne := hdistinct.2.2 node.1 (List.mem_map_of_mem hnode) l (by simp)
    simpa using hne.symm
  · intro hlookup
    obtain ⟨before, after, hnodes, -⟩ := List.lookup_eq_some_iff.mp hlookup
    simp [hnodes]

theorem locations_putNode
    (l : Location) (n : Node) (nodes : List (Location × Node)) :
    (putNode l n nodes).map (·.1) =
      if l ∈ nodes.map (·.1) then nodes.map (·.1) else nodes.map (·.1) ++ [l] := by
  induction nodes with
  | nil => rfl
  | cons node nodes ih =>
    obtain ⟨k, m⟩ := node
    rw [putNode]
    by_cases hk : k = l
    · simp [hk]
    · rw [if_neg hk, List.map_cons, ih]
      simp only [List.map_cons, List.mem_cons, Ne.symm hk, false_or]
      split
      · rfl
      · rfl

theorem IsTree.put
    (h : d.IsTree) (hl : IsZeroFree l) (n : Node) :
    (d.put l n).IsTree := by
  have hlocations : (d.put l n).nodes.map (·.1) =
      if l ∈ d.nodes.map (·.1) then d.nodes.map (·.1) else d.nodes.map (·.1) ++ [l] :=
    locations_putNode l n d.nodes
  refine ⟨?_, ?_, h.here⟩
  · rw [hlocations]
    split
    · exact h.distinct
    · rename_i hnew
      rw [← List.concat_eq_append]
      exact h.distinct.concat hnew
  · intro node hnode
    have hmem := List.mem_map_of_mem (f := (·.1)) hnode
    rw [hlocations] at hmem
    have hcases : node.1 ∈ d.nodes.map (·.1) ∨ node.1 = l := by
      split at hmem
      · exact Or.inl hmem
      · simpa using hmem
    rcases hcases with hold | hnew
    · obtain ⟨node', hnode', heq⟩ := List.mem_map.mp hold
      exact heq ▸ h.zeroFree node' hnode'
    · exact hnew ▸ hl

theorem IsTree.remove
    (h : d.IsTree) (l : Location) :
    (d.remove l).IsTree :=
  ⟨h.distinct.sublist (List.filter_sublist.map _),
    fun node hnode => h.zeroFree node (List.mem_of_mem_filter hnode), h.here⟩

/-! ## Names of paths -/

theorem mem_of_mem_splitBy
    {p : Char → Bool} {c : Char} {cs piece : List Char}
    (hpiece : piece ∈ Text.splitBy p cs) (hc : c ∈ piece) :
    c ∈ cs := by
  induction cs generalizing piece with
  | nil =>
    rw [Text.splitBy, List.mem_singleton] at hpiece
    exact hpiece ▸ hc
  | cons d cs ih =>
    rw [Text.splitBy] at hpiece
    split at hpiece
    · rcases List.mem_cons.mp hpiece with rfl | hrest
      · contradiction
      · exact List.mem_cons_of_mem d (ih hrest hc)
    · cases hsplit : Text.splitBy p cs with
      | nil => exact absurd hsplit (Text.splitBy_ne_nil p cs)
      | cons first rest =>
        rw [hsplit] at hpiece ih
        rcases List.mem_cons.mp hpiece with rfl | hrest
        · rcases List.mem_cons.mp hc with rfl | hc
          · exact List.mem_cons_self
          · exact List.mem_cons_of_mem d (ih List.mem_cons_self hc)
        · exact List.mem_cons_of_mem d (ih (List.mem_cons_of_mem _ hrest) hc)

theorem isZeroFree_names
    (h : isUsable path = true) :
    IsZeroFree (Path.names path) := by
  have hpath : '\x00' ∉ path.toList := by
    simp only [isUsable, Bool.and_eq_true, Bool.not_eq_true', List.contains_eq_mem,
      decide_eq_false_iff_not] at h
    exact h.1
  have hpieces : ∀ piece ∈ Text.pieces (· == '/') path.toList, '\x00' ∉ piece :=
    fun piece hpiece hzero => hpath (mem_of_mem_splitBy (List.mem_of_mem_filter hpiece) hzero)
  intro name hname
  have hcases : (∃ piece ∈ Text.pieces (· == '/') path.toList, String.ofList piece = name) ∨
      name = "." := by
    rw [Path.names] at hname
    split at hname
    · simpa using hname
    · exact Or.inl (by simpa using hname)
  rcases hcases with ⟨piece, hpiece, rfl⟩ | rfl
  · rw [String.toList_ofList]
    exact hpieces piece hpiece
  · decide

theorem IsTree.origin
    (h : d.IsTree) (path : String) :
    IsZeroFree (d.origin path) := by
  unfold Disk.origin
  split
  · exact fun name hname => absurd hname List.not_mem_nil
  · exact h.here

theorem isZeroFree_append
    (hat : IsZeroFree at_) (hname : '\x00' ∉ name.toList) :
    IsZeroFree (at_ ++ [name]) := by
  intro name' hmem
  rcases List.mem_append.mp hmem with hold | hnew
  · exact hat name' hold
  · exact List.mem_singleton.mp hnew ▸ hname

theorem isZeroFree_dropLast
    (h : IsZeroFree l) :
    IsZeroFree l.dropLast :=
  fun name hname => h name ((List.dropLast_sublist l).subset hname)

theorem isZeroFree_next
    (hat : IsZeroFree at_) (hname : '\x00' ∉ name.toList) :
    IsZeroFree (next at_ name) := by
  unfold next
  split
  · exact hat
  · split
    · exact isZeroFree_dropLast hat
    · exact isZeroFree_append hat hname

theorem isZeroFree_foldl_next
    (hat : IsZeroFree at_) (hnames : IsZeroFree names) :
    IsZeroFree (names.foldl next at_) := by
  induction names generalizing at_ with
  | nil => exact hat
  | cons name names ih =>
    exact ih (isZeroFree_next hat (hnames name List.mem_cons_self))
      fun name' hmem => hnames name' (List.mem_cons_of_mem name hmem)

theorem notMem_of_isUsable_join
    {base : String} (h : isUsable (Path.join base name) = true) :
    '\x00' ∉ name.toList := by
  simp only [isUsable, Bool.and_eq_true, Bool.not_eq_true', List.contains_eq_mem,
    decide_eq_false_iff_not] at h
  intro hzero
  apply h.1
  unfold Path.join
  split
  · exact hzero
  · split
    · simp [hzero]
    · simp [hzero]

/-! ## Operations -/

theorem IsTree.makeAlong
    (h : d.IsTree) (hat : IsZeroFree at_) (hnames : IsZeroFree names) :
    (d.makeAlong at_ names).1.IsTree := by
  have hrest : ∀ {name : String} {names : List String}, IsZeroFree (name :: names) →
      '\x00' ∉ name.toList ∧ IsZeroFree names := fun hboth =>
    ⟨hboth _ List.mem_cons_self, fun name hname => hboth name (List.mem_cons_of_mem _ hname)⟩
  fun_induction Disk.makeAlong d at_ names with
  | case1 d at_ => exact h
  | case2 d at_ names hdir ih => exact ih h hat (hrest hnames).2
  | case3 d at_ names hdir hne ih =>
    exact ih h (isZeroFree_dropLast hat) (hrest hnames).2
  | case4 d at_ name names hdir hhere habove hlimit => exact h
  | case5 d at_ name names hdir hhere habove hlimit next hnext ih =>
    exact ih h (isZeroFree_append hat (hrest hnames).1) (hrest hnames).2
  | case6 d at_ name names hdir hhere habove hlimit next content hnext => exact h
  | case7 d at_ name names hdir hhere habove hlimit next hnext ih =>
    have hnext' : IsZeroFree next := isZeroFree_append hat (hrest hnames).1
    exact ih (h.put hnext' .directory) hnext' (hrest hnames).2
  | case8 d at_ name names hdir => exact h

theorem IsTree.makeDirectories
    (h : d.IsTree) (path : String) :
    (d.makeDirectories path).1.IsTree := by
  unfold Disk.makeDirectories
  split
  · rename_i husable
    exact h.makeAlong (h.origin path) (isZeroFree_names husable)
  · exact h

theorem IsTree.replaceFile
    (h : d.IsTree) (directory name : String) (content : ByteArray) :
    (d.replaceFile directory name content).1.IsTree := by
  have hmade := h.makeDirectories directory
  unfold Disk.replaceFile
  split
  · rename_i d₁ e hfailed
    rwa [hfailed] at hmade
  · rename_i d₁ parent hdirectory
    rw [hdirectory] at hmade
    dsimp only
    split
    · exact hmade
    · rename_i hrefused
      simp only [not_or, Bool.not_eq_true', Bool.not_eq_false] at hrefused
      refine hmade.put (isZeroFree_append ?_ ?_) _
      · unfold Disk.makeDirectories at hdirectory
        split at hdirectory
        · rename_i husable
          rw [eq_foldl_of_walk (walk_of_makeAlong hdirectory)]
          exact isZeroFree_foldl_next (h.origin directory) (isZeroFree_names husable)
        · cases hdirectory
      · exact notMem_of_isUsable_join hrefused.2.1

theorem IsTree.resolve
    (h : d.IsTree) (hresolve : d.resolve path = .ok l) :
    IsZeroFree l := by
  obtain ⟨-, husable, hwalk⟩ := resolve_eq_ok_iff.mp hresolve
  rw [eq_foldl_of_walk hwalk]
  exact isZeroFree_foldl_next (h.origin path) (isZeroFree_names husable)

theorem IsTree.write
    {d' : Disk} {content : ByteArray} (h : d.IsTree) (hwrite : d.write path content = .ok d') :
    d'.IsTree := by
  unfold Disk.write at hwrite
  cases hresolve : d.resolve path with
  | error e => simp [hresolve, bind, Except.bind] at hwrite
  | ok l =>
    cases hdir : d.isDirectory l with
    | true => simp [hresolve, hdir, bind, Except.bind] at hwrite
    | false =>
      simp only [hresolve, hdir, Bool.false_eq_true, if_false, bind, Except.bind,
        Except.ok.injEq] at hwrite
      exact hwrite ▸ h.put (h.resolve hresolve) _

theorem IsTree.delete
    {d' : Disk} (h : d.IsTree) (hdelete : d.delete path = .ok d') :
    d'.IsTree := by
  unfold Disk.delete at hdelete
  cases hresolve : d.resolve path with
  | error e => simp [hresolve, bind, Except.bind] at hdelete
  | ok l =>
    cases hnode : d.node? l with
    | none => simp [hresolve, hnode, bind, Except.bind] at hdelete
    | some n =>
      simp only [hresolve, hnode, bind, Except.bind, Except.ok.injEq] at hdelete
      exact hdelete ▸ h.remove l

end SqlSnapshot.Disk
