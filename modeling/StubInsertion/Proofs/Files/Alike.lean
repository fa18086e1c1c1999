import StubInsertion.Proofs.Files.Entries

/-! # File systems alike

Two file systems are alike if the second one has the directories, links and devices of the first one
in their places, and a regular file, perhaps another one, wherever the first one has a regular file.

* **Ways.** A way leads to the same in both, or to a regular file in both (`Leads.alike`).
* **Reading.** What can be read in the first one can be read in the second one
  (`Alike.contents`). -/

namespace StubInsertion
namespace FileSystem

/-- The number of a regular file. -/
def IsFile (fs : FileSystem) (i : NodeId) : Prop := ∃ mode data, fs.node? i = some (.file mode data)

/-- The same node in both file systems, or a regular file in both. -/
def SameKind (fs fs' : FileSystem) (i i' : NodeId) : Prop :=
  i' = i ∧ fs'.node? i = fs.node? i ∨ fs.IsFile i ∧ fs'.IsFile i'

/-- What the first file system has is in its place in the second one, up to regular files. -/
structure Alike (fs fs' : FileSystem) : Prop where
  root : fs'.root = fs.root
  here : fs'.here = fs.here
  directory : ∀ i, fs.isDirectory i = true → fs'.node? i = fs.node? i
  only : ∀ i, fs'.isDirectory i = true → fs.isDirectory i = true
  slot : ∀ s i, fs.holds s = some i → ∃ i', fs'.holds s = some i' ∧ fs.SameKind fs' i i'

variable {fs fs' : FileSystem} {p : Path} {s : Slot} {i i' : NodeId}

theorem IsFile.not_isDirectory (h : fs.IsFile i) : fs.isDirectory i = false := by
  obtain ⟨mode, data, hi⟩ := h
  rw [FileSystem.isDirectory, hi]
  rfl

/-- No way leads through a regular file. -/
theorem IsFile.deadEnd (h : fs.IsFile i) (hs : fs.holds s = some i) : fs.DeadEnd s := by
  intro j hj
  cases hs.symm.trans hj
  refine ⟨h.not_isDirectory, ?_⟩
  intro target ht
  obtain ⟨mode, data, hi⟩ := h
  rw [hi] at ht
  cases ht

theorem isDirectory_above (h : fs.isDirectory i = true) : fs.isDirectory (fs.above i) = true := by
  unfold FileSystem.above
  split
  · split
    · assumption
    · exact h
  · exact h

namespace Alike

theorem sameWays (ha : fs.Alike fs') : SameWays fs fs' where
  root := ha.root
  here := ha.here
  directory := ha.directory
  only := ha.only
  slot s j hj hlive := by
    obtain ⟨j', hj', hsame | ⟨hfile, -⟩⟩ := ha.slot s j hj
    · obtain ⟨rfl, hnode⟩ := hsame
      exact ⟨hj', hnode⟩
    · exact absurd (hfile.deadEnd hj) hlive

/-- A directory is of the kind of itself only. -/
theorem directory_eq (ha : fs.Alike fs') (hk : fs.SameKind fs' i i')
    (hi : fs.isDirectory i = true) : i' = i ∧ fs'.isDirectory i = true := by
  obtain ⟨rfl, -⟩ | ⟨hfile, -⟩ := hk
  · exact ⟨rfl, ha.sameWays.isDirectory hi⟩
  · rw [hfile.not_isDirectory] at hi
    cases hi

theorem sameKind_of_directory (ha : fs.Alike fs') (hi : fs.isDirectory i = true) :
    fs.SameKind fs' i i := .inl ⟨rfl, ha.directory i hi⟩

end Alike

/-- The target of a link in a directory is looked up from a directory. -/
theorem Leads.base_isDirectory {n m : Nat} {dir : NodeId} {target : Path} {rest : List Name}
    {slash : Bool} (hd : fs.isDirectory dir = true)
    (h : fs.Leads n (fs.base target dir) (target.names ++ rest) (asks target rest slash) m i) :
    fs.isDirectory (fs.base target dir) = true := by
  by_cases hnames : target.names ++ rest = []
  · obtain ⟨hn, rfl⟩ := List.append_eq_nil_iff.mp hnames
    cases habs : target.isAbsolute with
    | false =>
        unfold FileSystem.base
        rw [if_neg (by simp [habs])]
        exact hd
    | true =>
        have hne : target.bytes ≠ [] := by
          intro hnil
          simp [Path.isAbsolute, hnil] at habs
        refine h.start_isDirectory ?_
        simp [asks, Path.endsInSlash_of_names_nil hne hn]
  · exact h.isDirectory hnames

/-- **Ways in one file system are ways in the other**, and lead to the same or to regular files. -/
theorem Leads.alike {n m : Nat} {dir dir' : NodeId} {names : List Name} {slash : Bool}
    (h : fs.Leads n dir names slash m i) (ha : fs.Alike fs') (hdir : fs.SameKind fs' dir dir') :
    ∃ i', fs'.Leads n dir' names slash m i' ∧ fs.SameKind fs' i i' := by
  induction h generalizing dir' with
  | here hd =>
      refine ⟨dir', .here fun hs => ?_, hdir⟩
      obtain ⟨rfl, hd'⟩ := ha.directory_eq hdir (hd hs)
      exact hd'
  | dot hd _ ih =>
      obtain ⟨rfl, hd'⟩ := ha.directory_eq hdir hd
      obtain ⟨i', hi', hk⟩ := ih hdir
      exact ⟨i', .dot hd' hi', hk⟩
  | dotDot hd _ ih =>
      obtain ⟨rfl, hd'⟩ := ha.directory_eq hdir hd
      obtain ⟨i', hi', hk⟩ := ih (ha.sameKind_of_directory (isDirectory_above hd))
      rw [← ha.sameWays.above hd] at hi'
      exact ⟨i', .dotDot hd' hi', hk⟩
  | enter hd hn hh hj _ ih =>
      obtain ⟨rfl, hd'⟩ := ha.directory_eq hdir hd
      obtain ⟨j', hj', hk⟩ := ha.slot _ _ hh
      obtain ⟨i', hi', hki⟩ := ih hk
      refine ⟨i', .enter hd' hn hj' (fun target ht => ?_) hi', hki⟩
      obtain ⟨rfl, hnode⟩ | ⟨-, mode, data, hfile⟩ := hk
      · exact hj target (hnode ▸ ht)
      · rw [hfile] at ht
        cases ht
  | @link n dir name rest slash m i j target hd hn hh hj h ih =>
      obtain ⟨rfl, hd'⟩ := ha.directory_eq hdir hd
      obtain ⟨j', hj', hk⟩ := ha.slot _ _ hh
      obtain ⟨rfl, hnode⟩ | ⟨⟨mode, data, hfile⟩, -⟩ := hk
      · have hbase := ha.sameKind_of_directory (h.base_isDirectory hd)
        obtain ⟨i', hi', hki⟩ := ih hbase
        rw [← ha.sameWays.base] at hi'
        exact ⟨i', .link hd' hn hj' (hnode.trans hj) hi', hki⟩
      · rw [hfile] at hj
        cases hj

/-- What is reached from a directory is another directory, or it has a name. -/
theorem Leads.named {n m : Nat} {dir : NodeId} {names : List Name} {slash : Bool}
    (h : fs.Leads n dir names slash m i) :
    i = dir ∨ fs.isDirectory i = true ∨ ∃ s, fs.holds s = some i := by
  induction h with
  | here _ => exact .inl rfl
  | dot _ _ ih => exact ih
  | dotDot hd _ ih =>
      rcases ih with rfl | hi
      · exact .inr (.inl (isDirectory_above hd))
      · exact .inr hi
  | enter _ _ hh _ _ ih =>
      rcases ih with rfl | hi
      · exact .inr (.inr ⟨_, hh⟩)
      · exact .inr hi
  | link hd _ _ _ h ih =>
      rcases ih with rfl | hi
      · exact .inr (.inl (h.base_isDirectory hd))
      · exact .inr hi

/-! ### Reading -/

theorem resolve_eq_ok_iff :
    fs.resolve p = .ok i ↔
      p.admit = .ok () ∧ ∃ m, fs.Leads maxLinks (fs.start p) p.names p.endsInSlash m i := by
  refine ⟨leads_of_resolve, ?_⟩
  rintro ⟨ha, m, hm⟩
  unfold resolve
  rw [ha, find, hm.walk]
  rfl

/-- What can be read is a regular file, or the device that is always empty. -/
theorem contents_eq_ok_iff {data : Bytes} :
    fs.contents p = .ok data ↔ ∃ i, fs.resolve p = .ok i ∧
      ((∃ mode, fs.node? i = some (.file mode data)) ∨
        data = [] ∧ ∃ mode, fs.node? i = some (.device mode .null)) := by
  unfold contents
  rw [bind_eq_ok_iff]
  refine exists_congr fun i => and_congr_right fun _ => ?_
  cases fs.node? i with
  | none => simp
  | some node =>
      cases node with
      | file mode bytes => simp
      | directory mode above => simp
      | symlink target => simp
      | device mode kind => cases kind <;> simp [eq_comm]

theorem start_isDirectory {m : Nat} (hp : p.admit = .ok ())
    (h : fs.Leads maxLinks (fs.start p) p.names p.endsInSlash m i) :
    fs.isDirectory (fs.start p) = true := by
  by_cases hn : p.names = []
  · exact h.start_isDirectory (Path.endsInSlash_of_names_nil (Path.admit_eq_ok_iff.mp hp).2.1 hn)
  · exact h.isDirectory hn

/-- A file to which a path leads has a name. -/
theorem exists_holds_of_resolve (h : fs.resolve p = .ok i) (hi : fs.isDirectory i = false) :
    ∃ s, fs.holds s = some i := by
  obtain ⟨hp, m, hm⟩ := resolve_eq_ok_iff.mp h
  rcases hm.named with rfl | hdir | hheld
  · rw [start_isDirectory hp hm] at hi
    cases hi
  · rw [hdir] at hi
    cases hi
  · exact hheld

/-- A path does not end in a directory name if it leads to no directory. -/
theorem Locates.plain_of_resolve (hl : fs.Locates p s) (h : fs.resolve p = .ok i)
    (hi : fs.isDirectory i = false) : Plain s.name := by
  obtain ⟨-, m, hm⟩ := leads_of_resolve h
  obtain ⟨init, m', hnames, hm'⟩ := hl.way
  rw [hnames] at hm
  obtain ⟨l, d, h1, h2⟩ := hm.split rfl (by simp)
  have hd := h1.target_isDirectory rfl
  constructor
  · intro hdot
    rw [hdot] at h2
    cases h2 with
    | dot _ hrest =>
        cases hrest
        rw [hi] at hd
        cases hd
    | enter _ hn _ _ _ => exact hn.ne_dot rfl
    | link _ hn _ _ _ => exact hn.ne_dot rfl
  · intro hdots
    rw [hdots] at h2
    cases h2 with
    | dotDot _ hrest =>
        cases hrest
        rw [isDirectory_above hd] at hi
        cases hi
    | enter _ hn _ _ _ => exact hn.ne_dotDot rfl
    | link _ hn _ _ _ => exact hn.ne_dotDot rfl

/-- What can be read is no directory. -/
theorem exists_resolve_of_contents {data : Bytes} (h : fs.contents p = .ok data) :
    ∃ i, fs.resolve p = .ok i ∧ fs.isDirectory i = false := by
  obtain ⟨i, hi, hnode⟩ := contents_eq_ok_iff.mp h
  refine ⟨i, hi, ?_⟩
  obtain ⟨m, hm⟩ | ⟨-, m, hm⟩ := hnode <;> simp [FileSystem.isDirectory, hm, Node.isDirectory]

/-- **What can be read in one file system can be read in the other.** -/
theorem Alike.contents (ha : fs.Alike fs') {data : Bytes} (h : fs.contents p = .ok data) :
    ∃ data', fs'.contents p = .ok data' := by
  obtain ⟨i, hi, hnode⟩ := contents_eq_ok_iff.mp h
  obtain ⟨hp, m, hm⟩ := resolve_eq_ok_iff.mp hi
  obtain ⟨i', hi', hk⟩ := hm.alike ha (ha.sameKind_of_directory (start_isDirectory hp hm))
  rw [← ha.sameWays.start] at hi'
  have hresolve := resolve_eq_ok_iff.mpr ⟨hp, m, hi'⟩
  obtain ⟨rfl, hsame⟩ | ⟨-, mode, data', hfile⟩ := hk
  · exact ⟨data, contents_eq_ok_iff.mpr ⟨i', hresolve, by rw [hsame]; exact hnode⟩⟩
  · exact ⟨data', contents_eq_ok_iff.mpr ⟨i', hresolve, .inl ⟨mode, hfile⟩⟩⟩

end FileSystem
end StubInsertion
