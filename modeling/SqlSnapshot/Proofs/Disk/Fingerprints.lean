import SqlSnapshot.Proofs.Disk.Trees
import SqlSnapshot.Proofs.Json.Printed
import SqlSnapshot.Snapshot

/-!
# What the fingerprint of a directory is taken of

The bytes that are hashed are the names and contents of the documents of a directory, with nothing
but zero bytes to part them.  As neither a name nor a snapshot holds a zero byte, the bytes can be
taken apart again in only one way, and as they stand in the order of the names, they tell which
documents there are and nothing else.
-/

namespace SqlSnapshot

/-! ## Zero bytes -/

theorem zero_notMem_utf8EncodeChar
    {c : Char} (h : c ≠ '\x00') :
    (0 : UInt8) ∉ String.utf8EncodeChar c := by
  have hpos : c.val.toNat ≠ 0 := fun hzero =>
    h (Char.ext (UInt32.toNat_inj.mp hzero))
  have hbyte : ∀ n : Nat, (0 : UInt8) = UInt8.ofNat n ↔ n % 256 = 0 := fun n => by
    rw [← UInt8.toNat_inj, UInt8.toNat_ofNat', eq_comm]
    rfl
  -- the bytes after the first of a character, and the first of several, have their high bit set
  simp only [String.utf8EncodeChar]
  split_ifs
  all_goals
    simp only [List.mem_cons, List.not_mem_nil, or_false, hbyte]
    omega

theorem zero_notMem_toUTF8
    {s : String} (h : '\x00' ∉ s.toList) :
    (0 : UInt8) ∉ s.toUTF8.data.toList := by
  rw [← String.ofList_toList (s := s), String.toUTF8_eq_toByteArray, String.toByteArray_ofList,
    List.utf8Encode, List.toList_data_toByteArray, List.mem_flatMap]
  rintro ⟨c, hc, hzero⟩
  have hne : c ≠ '\x00' := fun heq => h (heq ▸ hc)
  exact zero_notMem_utf8EncodeChar hne hzero

theorem Snapshot.zero_notMem_canonicalBytes (s : Snapshot) :
    (0 : UInt8) ∉ s.canonicalBytes.data.toList := by
  apply zero_notMem_toUTF8
  rw [canonicalText, Json.pretty, String.toList_append, String.toList_ofList, List.mem_append]
  rintro (htext | hend)
  · exact absurd (Json.isPrinted_of_mem_write _ _ htext) (by decide)
  · exact absurd hend (by decide)

/-! ## Taking the bytes apart -/

/-- What comes before the first of several separators can be read off. -/
theorem append_cons_inj
    {α : Type} {sep : α} {xs ys rest rest' : List α} (hxs : sep ∉ xs) (hys : sep ∉ ys)
    (h : xs ++ sep :: rest = ys ++ sep :: rest') :
    xs = ys ∧ rest = rest' := by
  induction xs generalizing ys with
  | nil =>
    cases ys with
    | nil => exact ⟨rfl, (List.cons.inj h).2⟩
    | cons y ys => exact absurd ((List.cons.inj h).1 ▸ List.mem_cons_self) hys
  | cons x xs ih =>
    cases ys with
    | nil => exact absurd ((List.cons.inj h).1 ▸ List.mem_cons_self) hxs
    | cons y ys =>
      obtain ⟨rfl, htail⟩ := List.cons.inj h
      obtain ⟨rfl, hrest⟩ := ih (fun hmem => hxs (List.mem_cons_of_mem x hmem))
        (fun hmem => hys (List.mem_cons_of_mem x hmem)) htail
      exact ⟨rfl, hrest⟩

namespace Snapshot

/-- The bytes that stand for one file. -/
def fileRecord (f : String × ByteArray) : List UInt8 :=
  f.1.toUTF8.data.toList ++ 0 :: (f.2.data.toList ++ [0])

/-- Neither the name nor the content of the file holds a zero byte. -/
structure IsZeroFree (f : String × ByteArray) : Prop where
  name : '\x00' ∉ f.1.toList
  content : (0 : UInt8) ∉ f.2.data.toList

variable {f g : String × ByteArray} {fs gs : List (String × ByteArray)}

theorem fileRecord_append_inj
    (hf : IsZeroFree f) (hg : IsZeroFree g) {rest rest' : List UInt8}
    (h : fileRecord f ++ rest = fileRecord g ++ rest') :
    f = g ∧ rest = rest' := by
  simp only [fileRecord, List.append_assoc, List.cons_append, List.nil_append] at h
  obtain ⟨hname, h⟩ := append_cons_inj (zero_notMem_toUTF8 hf.name) (zero_notMem_toUTF8 hg.name) h
  obtain ⟨hcontent, hrest⟩ := append_cons_inj hf.content hg.content h
  have hbytes : f.1.toByteArray = g.1.toByteArray :=
    ByteArray.ext (Array.toList_inj.mp hname)
  have hsame : f.2 = g.2 := ByteArray.ext (Array.toList_inj.mp hcontent)
  exact ⟨Prod.ext (String.toByteArray_inj.mp hbytes) hsame, hrest⟩

theorem flatMap_fileRecord_inj
    (hfs : ∀ f ∈ fs, IsZeroFree f) (hgs : ∀ g ∈ gs, IsZeroFree g)
    (h : fs.flatMap fileRecord = gs.flatMap fileRecord) :
    fs = gs := by
  induction fs generalizing gs with
  | nil =>
    cases gs with
    | nil => rfl
    | cons g gs => simp [fileRecord] at h
  | cons f fs ih =>
    cases gs with
    | nil => simp [fileRecord] at h
    | cons g gs =>
      rw [List.flatMap_cons, List.flatMap_cons] at h
      obtain ⟨rfl, hrest⟩ := fileRecord_append_inj (hfs f List.mem_cons_self)
        (hgs g List.mem_cons_self) h
      rw [ih (fun f hf => hfs f (List.mem_cons_of_mem _ hf))
        (fun g hg => hgs g (List.mem_cons_of_mem _ hg)) hrest]

/-! ## The order of the files -/

/-- The files in the order in which they are hashed. -/
def inNameOrder (fs : List (String × ByteArray)) : List (String × ByteArray) :=
  fs.mergeSort fun a b => decide (a.1 ≤ b.1)

theorem fingerprintStream_eq (fs : List (String × ByteArray)) :
    fingerprintStream fs = (inNameOrder fs).flatMap fileRecord := rfl

theorem mem_inNameOrder : f ∈ inNameOrder fs ↔ f ∈ fs :=
  List.mem_mergeSort

theorem pairwise_inNameOrder (fs : List (String × ByteArray)) :
    (inNameOrder fs).Pairwise fun a b => a.1 ≤ b.1 := by
  have htrans : ∀ a b c : String × ByteArray, decide (a.1 ≤ b.1) = true →
      decide (b.1 ≤ c.1) = true → decide (a.1 ≤ c.1) = true := by
    simpa only [decide_eq_true_eq] using fun _ _ _ => String.le_trans
  have htotal : ∀ a b : String × ByteArray,
      (decide (a.1 ≤ b.1) || decide (b.1 ≤ a.1)) = true := by
    simpa only [Bool.or_eq_true, decide_eq_true_eq] using fun _ _ => String.le_total _ _
  exact (List.pairwise_mergeSort htrans htotal fs).imp of_decide_eq_true

/-- Files of different names are hashed in one order, however they are listed. -/
theorem inNameOrder_eq
    (hfs : (fs.map (·.1)).Nodup) (hgs : (gs.map (·.1)).Nodup) (h : ∀ f, f ∈ fs ↔ f ∈ gs) :
    inNameOrder fs = inNameOrder gs := by
  have hperm : fs.Perm gs := (List.perm_ext_iff_of_nodup hfs.of_map hgs.of_map).mpr h
  have hboth : (inNameOrder fs).Perm (inNameOrder gs) :=
    ((List.mergeSort_perm fs _).trans hperm).trans (List.mergeSort_perm gs _).symm
  refine List.Perm.eq_of_pairwise ?_ (pairwise_inNameOrder fs) (pairwise_inNameOrder gs) hboth
  intro a b ha hb hab hba
  have hname : a.1 = b.1 := String.le_antisymm hab hba
  exact List.inj_on_of_nodup_map hfs (mem_inNameOrder.mp ha)
    ((h b).mpr (mem_inNameOrder.mp hb)) hname

/-- The bytes hashed tell which files there are, and nothing else. -/
theorem fingerprintStream_eq_iff_mem
    (hfs : (fs.map (·.1)).Nodup) (hgs : (gs.map (·.1)).Nodup)
    (hfs_free : ∀ f ∈ fs, IsZeroFree f) (hgs_free : ∀ g ∈ gs, IsZeroFree g) :
    fingerprintStream fs = fingerprintStream gs ↔ ∀ f, f ∈ fs ↔ f ∈ gs := by
  rw [fingerprintStream_eq, fingerprintStream_eq]
  constructor
  · intro hstream f
    have hsorted := flatMap_fileRecord_inj (fun f hf => hfs_free f (mem_inNameOrder.mp hf))
      (fun g hg => hgs_free g (mem_inNameOrder.mp hg)) hstream
    exact mem_inNameOrder.symm.trans (hsorted ▸ mem_inNameOrder)
  · intro h
    rw [inNameOrder_eq hfs hgs h]

end Snapshot

/-! ## Directories -/

namespace Disk

variable {d d' : Disk} {l parent : Location} {name path path' : String} {content : ByteArray}
  {files : List (String × ByteArray)}

theorem childName?_eq_some_iff : childName? parent l = some name ↔ l = parent ++ [name] := by
  unfold childName?
  split
  · rename_i last hlast
    split
    · rename_i hl
      simp [hl]
    · rename_i hl
      refine ⟨fun h => (Option.some_ne_none _ h.symm).elim, ?_⟩
      rintro rfl
      simp only [List.getLast?_concat, Option.some.injEq] at hlast
      exact absurd (hlast ▸ rfl) hl
  · rename_i hlast
    refine ⟨fun h => (Option.some_ne_none _ h.symm).elim, ?_⟩
    rintro rfl
    simp at hlast

/-- The node as a file of the directory. -/
def fileIn? (parent : Location) (node : Location × Node) : Option (String × ByteArray) :=
  match node.2, childName? parent node.1 with
  | .file content, some name => some (name, content)
  | _, _ => none

theorem filesOf_eq (d : Disk) (parent : Location) :
    d.filesOf parent = d.nodes.filterMap (fileIn? parent) := rfl

theorem fileIn?_eq_some_iff
    {node : Location × Node} {f : String × ByteArray} :
    fileIn? parent node = some f ↔ node = (parent ++ [f.1], .file f.2) := by
  obtain ⟨l, n⟩ := node
  unfold fileIn?
  split
  · rename_i content name hnode hchild
    obtain rfl : n = .file content := hnode
    obtain rfl := childName?_eq_some_iff.mp hchild
    rw [Option.some.injEq, Prod.ext_iff]
    simp
  · rename_i hnone
    refine ⟨fun h => (Option.some_ne_none _ h.symm).elim, fun h => ?_⟩
    obtain ⟨rfl, rfl⟩ := Prod.mk.inj h
    exact absurd (childName?_eq_some_iff.mpr rfl) (hnone _ _ rfl)

theorem mem_filesOf_iff
    {f : String × ByteArray} :
    f ∈ d.filesOf parent ↔ (parent ++ [f.1], Node.file f.2) ∈ d.nodes := by
  simp only [filesOf_eq, List.mem_filterMap, fileIn?_eq_some_iff, exists_eq_right]

theorem IsTree.nodup_names_filesOf
    (h : d.IsTree) (parent : Location) :
    ((d.filesOf parent).map (·.1)).Nodup := by
  have hdistinct : d.nodes.Pairwise fun a b => a.1 ≠ b.1 := List.pairwise_map.mp h.distinct
  rw [List.Nodup, List.pairwise_map, filesOf_eq, List.pairwise_filterMap]
  refine hdistinct.imp ?_
  intro node node' hne f hf g hg hname
  rw [fileIn?_eq_some_iff] at hf hg
  exact hne (by rw [hf, hg, hname])

/-! ## Documents -/

/-- The directory holds the document with the content under the name. -/
def HoldsDocument (d : Disk) (path name : String) (content : ByteArray) : Prop :=
  ∃ l, d.resolve path = .ok l ∧ d.node? (l ++ [name]) = some (.file content) ∧
    Path.extension? name = some "json"

/-- What listing the documents of a directory gives. -/
structure Lists (d : Disk) (path : String) (files : List (String × ByteArray)) : Prop where
  documents : d.documents path = .ok files
  distinct : (files.map (·.1)).Nodup
  mem_iff : ∀ f, f ∈ files ↔ d.HoldsDocument path f.1 f.2
  nameZeroFree : ∀ f ∈ files, '\x00' ∉ f.1.toList

theorem IsTree.exists_lists
    (h : d.IsTree) (hdir : d.find path = .ok .directory) :
    ∃ files, d.Lists path files := by
  obtain ⟨l, hresolve, hnode⟩ : ∃ l, d.resolve path = .ok l ∧ d.node? l = some .directory := by
    unfold find at hdir
    cases hresolve : d.resolve path with
    | error e => simp [hresolve, bind, Except.bind] at hdir
    | ok l =>
      refine ⟨l, rfl, ?_⟩
      cases hnode : d.node? l <;> simp_all [bind, Except.bind]
  have hfile : ∀ f : String × ByteArray,
      f ∈ d.filesOf l ↔ d.node? (l ++ [f.1]) = some (.file f.2) := fun f => by
    rw [mem_filesOf_iff, h.mem_nodes_iff (by simp)]
  refine ⟨(d.filesOf l).filter fun f => Path.extension? f.1 == some "json", ?_, ?_, ?_, ?_⟩
  · simp [documents, hresolve, hnode, bind, Except.bind]
  · exact (h.nodup_names_filesOf l).sublist (List.filter_sublist.map _)
  · intro f
    simp only [List.mem_filter, hfile, beq_iff_eq, HoldsDocument, hresolve, Except.ok.injEq,
      exists_eq_left']
  · intro f hf
    have hmem := mem_filesOf_iff.mp (List.mem_filter.mp hf).1
    exact h.zeroFree _ hmem f.1 (by simp)

theorem Lists.zeroFree
    (h : d.Lists path files)
    (hcanonical : ∀ name content, d.HoldsDocument path name content →
      ∃ s : Snapshot, content = s.canonicalBytes) :
    ∀ f ∈ files, Snapshot.IsZeroFree f := by
  intro f hf
  obtain ⟨s, hs⟩ := hcanonical f.1 f.2 ((h.mem_iff f).mp hf)
  exact ⟨h.nameZeroFree f hf, hs ▸ s.zero_notMem_canonicalBytes⟩

/-- Two directories whose documents are snapshots have the same bytes hashed exactly if they hold
the same documents, in whatever order these are listed and whatever else there is. -/
theorem fingerprintStream_eq_iff_documents
    (htree : d.IsTree) (htree' : d'.IsTree)
    (hdir : d.find path = .ok .directory) (hdir' : d'.find path' = .ok .directory)
    (hcanonical : ∀ name content, d.HoldsDocument path name content →
      ∃ s : Snapshot, content = s.canonicalBytes)
    (hcanonical' : ∀ name content, d'.HoldsDocument path' name content →
      ∃ s : Snapshot, content = s.canonicalBytes) :
    ∃ files files', d.documents path = .ok files ∧ d'.documents path' = .ok files' ∧
      (Snapshot.fingerprintStream files = Snapshot.fingerprintStream files' ↔
        ∀ name content,
          d.HoldsDocument path name content ↔ d'.HoldsDocument path' name content) := by
  obtain ⟨files, hlists⟩ := htree.exists_lists hdir
  obtain ⟨files', hlists'⟩ := htree'.exists_lists hdir'
  refine ⟨files, files', hlists.documents, hlists'.documents, ?_⟩
  rw [Snapshot.fingerprintStream_eq_iff_mem hlists.distinct hlists'.distinct
    (hlists.zeroFree hcanonical) (hlists'.zeroFree hcanonical')]
  simp only [hlists.mem_iff, hlists'.mem_iff, Prod.forall]

/-- A directory with the snapshots, listed in their order after an entry of another kind. -/
def shelf (other : String × Node) (snapshots : List (String × Snapshot)) : Disk where
  nodes := (["s"], .directory) :: (["s", other.1], other.2) ::
    snapshots.map fun f => (["s", f.1], .file f.2.canonicalBytes)

theorem resolve_shelf (other : String × Node) (snapshots : List (String × Snapshot)) :
    (shelf other snapshots).resolve "s" = .ok ["s"] := rfl

theorem isTree_shelf
    {other : String × Node} {snapshots : List (String × Snapshot)}
    (hdistinct : (other.1 :: snapshots.map (·.1)).Nodup)
    (hzero : ∀ name ∈ other.1 :: snapshots.map (·.1), '\x00' ∉ name.toList) :
    (shelf other snapshots).IsTree := by
  have hnames : ((shelf other snapshots).nodes.map (·.1)) =
      ["s"] :: (other.1 :: snapshots.map (·.1)).map fun name => ["s", name] := by
    simp [shelf]
  refine ⟨?_, ?_, fun name hname => absurd hname List.not_mem_nil⟩
  · rw [hnames, List.nodup_cons]
    exact ⟨by simp, hdistinct.map fun _ _ h => by simpa using h⟩
  · intro node hnode name hname
    have hlocation := List.mem_map_of_mem (f := (·.1)) hnode
    rw [hnames, List.mem_cons, List.mem_map] at hlocation
    rcases hlocation with heq | ⟨file, hfile, heq⟩
    · rw [heq, List.mem_singleton] at hname
      exact hname ▸ by decide
    · rw [← heq, List.mem_pair] at hname
      rcases hname with rfl | rfl
      · decide
      · exact hzero _ hfile

theorem holdsDocument_shelf_iff
    {other : String × Node} {snapshots : List (String × Snapshot)}
    (htree : (shelf other snapshots).IsTree)
    (hother : Path.extension? other.1 ≠ some "json" ∨ other.2 = .directory)
    (hjson : ∀ name ∈ snapshots.map (·.1), Path.extension? name = some "json")
    (name : String) (content : ByteArray) :
    (shelf other snapshots).HoldsDocument "s" name content ↔
      ∃ f ∈ snapshots, f.1 = name ∧ f.2.canonicalBytes = content := by
  simp only [HoldsDocument, resolve_shelf, Except.ok.injEq, exists_eq_left',
    ← htree.mem_nodes_iff (l := ["s"] ++ [name]) (by simp)]
  constructor
  · rintro ⟨hmem, hext⟩
    simp only [shelf, List.mem_cons, List.mem_map, Prod.mk.injEq, List.cons_append,
      List.nil_append, List.cons.injEq, Node.file.injEq, true_and, and_true] at hmem
    rcases hmem with ⟨hname, -⟩ | ⟨hname, hnode⟩ | hfile
    · exact absurd hname (by simp)
    · rcases hother with hne | hdir
      · exact absurd (hname ▸ hext) hne
      · rw [hdir] at hnode
        contradiction
    · exact hfile
  · rintro ⟨f, hf, rfl, rfl⟩
    refine ⟨?_, hjson f.1 (List.mem_map_of_mem hf)⟩
    exact List.mem_cons_of_mem _ (List.mem_cons_of_mem _ (List.mem_map_of_mem hf))

theorem fingerprintStream_eq_iff_documents_sample :
    ∃ a b : Snapshot, ∃ files files',
      (shelf ("notes.txt", .file .empty) [("a.json", a), ("b.json", b)]).documents "s" = .ok files ∧
      (shelf ("c.json", .directory) [("b.json", b), ("a.json", a)]).documents "s" = .ok files' ∧
      Snapshot.fingerprintStream files = Snapshot.fingerprintStream files' := by
  let a : Snapshot := default
  let b : Snapshot := { a with name := "b" }
  have htree : (shelf ("notes.txt", .file .empty) [("a.json", a), ("b.json", b)]).IsTree :=
    isTree_shelf (by simp) (by decide)
  have htree' : (shelf ("c.json", .directory) [("b.json", b), ("a.json", a)]).IsTree :=
    isTree_shelf (by simp) (by decide)
  have hholds := holdsDocument_shelf_iff htree (Or.inl (by decide +kernel)) (by decide +kernel)
  have hholds' := holdsDocument_shelf_iff htree' (Or.inr rfl) (by decide +kernel)
  obtain ⟨files, files', hfiles, hfiles', hiff⟩ :=
    fingerprintStream_eq_iff_documents htree htree' rfl rfl
      (fun name content h => by
        obtain ⟨f, -, -, hf⟩ := (hholds name content).mp h
        exact ⟨f.2, hf.symm⟩)
      (fun name content h => by
        obtain ⟨f, -, -, hf⟩ := (hholds' name content).mp h
        exact ⟨f.2, hf.symm⟩)
  refine ⟨a, b, files, files', hfiles, hfiles', hiff.mpr fun name content => ?_⟩
  rw [hholds, hholds']
  simp [or_comm]

end Disk

end SqlSnapshot
