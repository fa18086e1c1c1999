import StubInsertion.Proofs.Files.Relinking

/-! # Calls on whatever stands there

What the calls of a replacement do to a name that may hold anything.

* **Opening.** A file that is opened for writing is found or made where the path leads, and names
  that were there keep their nodes: `opened_of_create`.  It stays so while the file is written
  (`Opened.write`).
* **Renaming.** `moved_of_rename` is what a call that succeeds has done, `rename_ok` says when a call
  succeeds.
* **Lost paths.** Under a path that is lost no call succeeds (`Lost.rename`, `Lost.unlink`). -/

namespace StubInsertion
namespace FileSystem

variable {fs fs' x : FileSystem} {p q : Path} {s t : Slot} {i j k : NodeId}

/-! ### More files -/

/-- Neither a directory nor a link, if there at all. -/
structure Leaf (fs : FileSystem) (j : NodeId) : Prop where
  not_directory : fs.isDirectory j = false
  not_link : ∀ target, fs.node? j ≠ some (.symlink target)

/-- What is there keeps its place, and directories and links are the same. -/
structure Grown (fs fs' : FileSystem) : Prop where
  root : fs'.root = fs.root
  here : fs'.here = fs.here
  slot : ∀ s j, fs.holds s = some j → fs'.holds s = some j
  node : ∀ j, fs'.node? j = fs.node? j ∨ fs.Leaf j ∧ fs'.Leaf j

theorem IsFile.leaf (h : fs.IsFile j) : fs.Leaf j := by
  refine ⟨h.not_isDirectory, fun target ht => ?_⟩
  obtain ⟨mode, data, hfile⟩ := h
  rw [hfile] at ht
  cases ht

theorem leaf_of_device {mode : Mode} {kind : Device} (h : fs.node? j = some (.device mode kind)) :
    fs.Leaf j := by
  refine ⟨?_, by simp [h]⟩
  rw [FileSystem.isDirectory, h]
  rfl

theorem leaf_of_none (h : fs.node? j = none) : fs.Leaf j := by
  refine ⟨?_, by simp [h]⟩
  rw [FileSystem.isDirectory, h]
  rfl

theorem Leaf.inert (h : fs'.Leaf j) (dir : NodeId) : fs.Inert dir (fs'.node? j) :=
  ⟨h.not_directory, fun target ht => absurd ht (h.not_link target)⟩

theorem Leaf.deadEnd (h : fs.Leaf j) (hs : fs.holds s = some j) : fs.DeadEnd s := by
  intro k hk
  cases hs.symm.trans hk
  exact h.inert s.dir

namespace Grown

theorem refl (fs : FileSystem) : Grown fs fs := ⟨rfl, rfl, fun _ _ h => h, fun _ => .inl rfl⟩

theorem isDirectory (h : Grown fs fs') (i : NodeId) : fs'.isDirectory i = fs.isDirectory i := by
  rcases h.node i with h | ⟨h1, h2⟩
  · rw [FileSystem.isDirectory, FileSystem.isDirectory, h]
  · rw [h1.not_directory, h2.not_directory]

theorem directory (h : Grown fs fs') (hi : fs.isDirectory i = true) : fs'.node? i = fs.node? i :=
  (h.node i).resolve_right fun hl => by simp [hl.1.not_directory] at hi

theorem above (h : Grown fs fs') (hi : fs.isDirectory i = true) : fs'.above i = fs.above i := by
  unfold FileSystem.above
  rw [h.directory hi]
  simp only [h.isDirectory]

theorem base (h : Grown fs fs') (target : Path) (dir : NodeId) :
    fs'.base target dir = fs.base target dir := by
  rw [FileSystem.base, FileSystem.base, h.root]

theorem link_iff (h : Grown fs fs') (j : NodeId) (target : Path) :
    fs'.node? j = some (.symlink target) ↔ fs.node? j = some (.symlink target) := by
  rcases h.node j with h | ⟨h1, h2⟩
  · rw [h]
  · exact ⟨fun h => absurd h (h2.not_link target), fun h => absurd h (h1.not_link target)⟩

theorem sameWays (h : Grown fs fs') : SameWays fs fs' where
  root := h.root
  here := h.here
  directory i hi := h.directory hi
  only i hi := h.isDirectory i ▸ hi
  slot s j hj hlive := by
    refine ⟨h.slot s j hj, (h.node j).resolve_right fun hl => hlive ?_⟩
    exact hl.1.deadEnd hj

end Grown

/-- Ways remain, those to files too. -/
theorem Leads.grow {n m : Nat} {dir : NodeId} {names : List Name} {slash : Bool}
    (h : fs.Leads n dir names slash m i) (hg : Grown fs fs') : fs'.Leads n dir names slash m i := by
  induction h with
  | here hd => exact .here fun h => (hg.isDirectory _).trans (hd h)
  | dot hd _ ih => exact .dot ((hg.isDirectory _).trans hd) ih
  | dotDot hd _ ih => exact .dotDot ((hg.isDirectory _).trans hd) (by rw [hg.above hd]; exact ih)
  | enter hd hn hh hj _ ih =>
      exact .enter ((hg.isDirectory _).trans hd) hn (hg.slot _ _ hh)
        (fun target ht => hj target ((hg.link_iff _ _).mp ht)) ih
  | link hd hn hh hj _ ih =>
      exact .link ((hg.isDirectory _).trans hd) hn (hg.slot _ _ hh) ((hg.link_iff _ _).mpr hj)
        (by rw [hg.base]; exact ih)

/-! ### What a walk finds -/

/-- A walk leads to a node, or to a vacant slot in which a file would be found. -/
def Finds (fs : FileSystem) (n : Nat) (dir : NodeId) (names : List Name) (slash : Bool) :
    Found → Prop
  | .node i => ∃ m, fs.Leads n dir names slash m i
  | .vacant v => fs.holds v = none ∧ ∀ fs' k, Grown fs fs' → fs'.holds v = some k → fs'.Leaf k →
      ∃ m, fs'.Leads n dir names slash m k

/-- A walk finds what the rest of it finds. -/
theorem Finds.step {n n' : Nat} {dir dir' : NodeId} {names names' : List Name} {slash slash' : Bool}
    {r : Found} (h : fs.Finds n' dir' names' slash' r)
    (hstep : ∀ fs', Grown fs fs' → ∀ m i, fs'.Leads n' dir' names' slash' m i →
      fs'.Leads n dir names slash m i) : fs.Finds n dir names slash r := by
  cases r with
  | node i =>
      obtain ⟨m, hm⟩ := h
      exact ⟨m, hstep fs (.refl fs) m i hm⟩
  | vacant v =>
      refine ⟨h.1, fun fs' k hg hk hleaf => ?_⟩
      obtain ⟨m, hm⟩ := h.2 fs' k hg hk hleaf
      exact ⟨m, hstep fs' hg m k hm⟩

theorem finds_of_walk (intent : Intent) (n : Nat) (dir : NodeId) (names : List Name) (slash : Bool)
    {r : Found} (h : fs.walk intent n dir names slash = .ok r) : fs.Finds n dir names slash r := by
  match names with
  | [] =>
      rw [walk_nil] at h
      split at h
      · cases h
      · cases h
        exact ⟨n, .here (by simp_all)⟩
  | name :: rest =>
      cases hd : fs.isDirectory dir with
      | false =>
          rw [walk_of_not_directory _ _ hd] at h
          cases h
      | true =>
      have hd' {fs' : FileSystem} (hg : Grown fs fs') : fs'.isDirectory dir = true :=
        (hg.isDirectory dir).trans hd
      by_cases h1 : name = Path.dot
      · subst h1
        rw [walk_dot _ _ hd] at h
        exact (finds_of_walk intent n dir rest slash h).step fun _ hg _ _ hm => .dot (hd' hg) hm
      by_cases h2 : name = Path.dotDot
      · subst h2
        rw [walk_dotDot _ _ hd] at h
        exact (finds_of_walk intent n (fs.above dir) rest slash h).step
          fun _ hg _ _ hm => .dotDot (hd' hg) (by rw [hg.above hd]; exact hm)
      by_cases hi : (rest.isEmpty && slash && decide (intent = .create)) = false
      · rw [walk_name n hd h1 h2 hi] at h
        split at h
        · cases h
        rename_i hlen
        have hn : Proper name := ⟨h1, h2, Nat.not_lt.mp hlen⟩
        split at h
        · rename_i hnone
          split at h
          · rename_i hlast
            cases h
            -- the last name is vacant: this is where a new file would be
            simp only [Bool.and_eq_true, List.isEmpty_iff, Bool.not_eq_true'] at hlast
            obtain ⟨rfl, rfl⟩ := hlast
            exact ⟨hnone, fun fs' k hg hk hleaf =>
              ⟨n, .enter (hd' hg) hn hk hleaf.not_link (.here (by simp))⟩⟩
          · cases h
        · rename_i j hh
          split at h
          · rename_i target hj
            cases n with
            | zero => cases h
            | succ n =>
                exact (finds_of_walk intent n _ _ _ h).step fun _ hg _ _ hm =>
                  .link (hd' hg) hn (hg.slot _ _ hh) ((hg.link_iff _ _).mpr hj)
                    (by rw [hg.base]; exact hm)
          · rename_i hj
            exact (finds_of_walk intent n j rest slash h).step fun _ hg _ _ hm =>
              .enter (hd' hg) hn (hg.slot _ _ hh) (fun target e => hj target ((hg.link_iff _ _).mp e))
                hm
      · -- nothing is created under a path that asks for a directory
        rw [Bool.not_eq_false] at hi
        rw [walk_eq, walkFrom, hi] at h
        simp [hd, h1, h2] at h
termination_by (n, names.length)

/-! ### Opening -/

/-- A file is open for writing: `k` is what the path `q` leads to, `i` stands at its last name `t`. -/
structure Opened (fs x : FileSystem) (q : Path) (t : Slot) (i k : NodeId) : Prop where
  root : x.root = fs.root
  here : x.here = fs.here
  kept : ∀ s j, fs.holds s = some j → x.holds s = some j
  added : ∀ s j, x.holds s = some j →
    fs.holds s = some j ∨ fs.holds s = none ∧ j = k ∧ fs.node? k = none
  node : ∀ j, j ≠ k → x.node? j = fs.node? j
  opened : (∃ mode kind, fs.node? k = some (.device mode kind) ∧
      x.node? k = some (.device mode kind)) ∨ (fs.node? k = none ∨ fs.IsFile k) ∧ x.IsFile k
  entry : x.holds t = some i
  link : i = k ∨ fs.holds t = some i ∧ ∃ target, fs.node? i = some (.symlink target)
  resolve : x.resolve q = .ok k

namespace Opened

theorem leaf_before (h : Opened fs x q t i k) : fs.Leaf k := by
  rcases h.opened with ⟨mode, kind, hdev, -⟩ | ⟨hnone | hfile, -⟩
  · exact leaf_of_device hdev
  · exact leaf_of_none hnone
  · exact hfile.leaf

theorem leaf (h : Opened fs x q t i k) : x.Leaf k := by
  rcases h.opened with ⟨mode, kind, -, hdev⟩ | ⟨-, hfile⟩
  · exact leaf_of_device hdev
  · exact hfile.leaf

theorem grown (h : Opened fs x q t i k) : Grown fs x where
  root := h.root
  here := h.here
  slot := h.kept
  node j := by
    by_cases hj : j = k
    · subst hj
      exact .inr ⟨h.leaf_before, h.leaf⟩
    · exact .inl (h.node j hj)

theorem noNewWays (h : Opened fs x q t i k) : NoNewWays fs x where
  root := h.root
  here := h.here
  directory i hi := (h.grown.directory (h.grown.isDirectory i ▸ hi)).symm
  only i hi := (h.grown.isDirectory i).trans hi
  slot s j hj := by
    by_cases hjk : j = k
    · subst hjk
      exact .inr (h.leaf.inert s.dir)
    · rcases h.added s j hj with h1 | ⟨-, h2, -⟩
      · exact .inl ⟨h1, (h.node j hjk).symm⟩
      · exact absurd h2 hjk

/-- The name that was opened leads to no directory. -/
theorem deadEnd (h : Opened fs x q t i k) (hl : fs.Locates q t) (hn : Plain t.name) :
    fs.DeadEnd t := by
  have hx := hl.frame h.grown.sameWays
  obtain ⟨-, t', hl', hplain⟩ := exists_locates h.resolve h.leaf.not_directory
  cases hx.unique hl'
  obtain ⟨-, hdead, -⟩ := hplain hn
  intro j hj
  obtain ⟨hdir, hlink⟩ := hdead j (h.kept t j hj)
  refine ⟨(h.grown.isDirectory j).symm.trans hdir, fun target ht n m d hd => ?_⟩
  apply hlink target ((h.grown.link_iff j target).mpr ht) n m d
  rw [h.grown.base]
  exact hd.frame rfl h.grown.sameWays

/-- What stands at the name that was opened leads to no directory. -/
theorem inert_entry (h : Opened fs x q t i k) (hl : fs.Locates q t) (hn : Plain t.name) :
    fs.Inert t.dir (x.node? i) := by
  by_cases hik : i = k
  · subst hik
    exact h.leaf.inert t.dir
  · rw [h.node i hik]
    exact (h.deadEnd hl hn).inert (h.link.resolve_left hik).1

theorem inert_of_deadEnd (h : Opened fs x q t i k) (hs : fs.DeadEnd s) (hj : fs.holds s = some j) :
    fs.Inert s.dir (x.node? j) := by
  by_cases hjk : j = k
  · subst hjk
    exact h.leaf.inert s.dir
  · rw [h.node j hjk]
    exact hs.inert hj

/-- The path was short enough, and so was its last name. -/
theorem admitted (h : Opened fs x q t i k) : q.admit = .ok () := (leads_of_resolve h.resolve).1

theorem proper (h : Opened fs x q t i k) (hl : fs.Locates q t) (hn : Plain t.name) :
    Proper t.name := by
  obtain ⟨-, t', hl', hplain⟩ := exists_locates h.resolve h.leaf.not_directory
  cases (hl.frame h.grown.sameWays).unique hl'
  exact ⟨hn.ne_dot, hn.ne_dotDot, (hplain hn).1⟩

/-- Bytes and permissions change nothing else. -/
theorem write (h : Opened fs x q t i k) (hfile : x.IsFile k) (mode : Mode) (data : Bytes) :
    Opened fs (x.setNode k (.file mode data)) q t i k := by
  have hnode : (x.setNode k (.file mode data)).node? k = some (.file mode data) := by
    rw [node?_setNode, if_pos rfl]
  have hgrown : Grown x (x.setNode k (.file mode data)) := by
    refine ⟨rfl, rfl, fun _ _ hj => hj, fun j => ?_⟩
    by_cases hj : j = k
    · subst hj
      exact .inr ⟨hfile.leaf, IsFile.leaf ⟨mode, data, hnode⟩⟩
    · exact .inl (by rw [node?_setNode, if_neg hj])
  refine { h with
    node := fun j hj => ?_
    opened := .inr ⟨?_, mode, data, hnode⟩
    resolve := ?_ }
  · rw [node?_setNode, if_neg hj]
    exact h.node j hj
  · rcases h.opened with ⟨m, kind, -, hdev⟩ | ⟨hbefore, -⟩
    · obtain ⟨m', data', hfile⟩ := hfile
      rw [hdev] at hfile
      cases hfile
    · exact hbefore
  · obtain ⟨ha, m, hm⟩ := resolve_eq_ok_iff.mp h.resolve
    exact resolve_eq_ok_iff.mpr ⟨ha, m, hm.grow hgrown⟩

end Opened

/-- The node that stands at the last name of a path, if the path leads to a node. -/
theorem exists_entry (hl : fs.Locates q t) (hn : Plain t.name) (h : fs.resolve q = .ok k) :
    ∃ i, fs.holds t = some i ∧ (i = k ∨ ∃ target, fs.node? i = some (.symlink target)) := by
  obtain ⟨ha, m, hm⟩ := leads_of_resolve h
  obtain ⟨init, m', hnames, hm'⟩ := hl.way
  rw [hnames] at hm
  obtain ⟨l, d, h1, h2⟩ := hm.split rfl (by simp)
  cases t
  cases hm'.agree h1
  cases h2 with
  | dot _ _ => exact absurd rfl hn.ne_dot
  | dotDot _ _ => exact absurd rfl hn.ne_dotDot
  | enter _ _ hh _ hrest =>
      cases hrest
      exact ⟨_, hh, .inl rfl⟩
  | link _ _ hh hj _ => exact ⟨_, hh, .inr ⟨_, hj⟩⟩

/-- **A file that was opened for writing** is empty, or it is a device. -/
theorem opened_of_create (hl : fs.Locates q t) (hn : Plain t.name) (h : fs.create q = .ok (k, x)) :
    ∃ i, Opened fs x q t i k ∧ ((∃ mode, x.node? k = some (.file mode [])) ∨
      ∃ mode kind, fs.node? k = some (.device mode kind)) := by
  unfold create at h
  obtain ⟨⟨⟩, ha, h⟩ := bind_eq_ok_iff.mp h
  split at h
  · cases h
  · -- a new file in a vacant slot
    rename_i v hv
    obtain ⟨hnone, hfinds⟩ := finds_of_walk _ _ _ _ _ hv
    cases h
    have hnode := node?_add_of_vacant fs hnone (.file creationMode [])
    have hfile : (fs.add v (.file creationMode [])).node? fs.fresh =
        some (.file creationMode []) := by rw [hnode, if_pos rfl]
    have hslot (s : Slot) := fs.holds_add v s (.file creationMode [])
    have hkept (s : Slot) (j : NodeId) (hj : fs.holds s = some j) :
        (fs.add v (.file creationMode [])).holds s = some j := by
      rw [hslot, if_neg (by rintro rfl; simp [hnone] at hj), hj]
    have hother (j : NodeId) (hj : j ≠ fs.fresh) :
        (fs.add v (.file creationMode [])).node? j = fs.node? j := by rw [hnode, if_neg hj]
    have hgrown : Grown fs (fs.add v (.file creationMode [])) := by
      refine ⟨root_add .., here_add .., hkept, fun j => ?_⟩
      by_cases hj : j = fs.fresh
      · rw [hj]
        exact .inr ⟨leaf_of_none fs.node?_fresh, IsFile.leaf ⟨_, _, hfile⟩⟩
      · exact .inl (hother j hj)
    obtain ⟨m, hm⟩ := hfinds _ fs.fresh hgrown (by rw [hslot, if_pos rfl])
      (IsFile.leaf ⟨_, _, hfile⟩)
    have hstart : (fs.add v (.file creationMode [])).start q = fs.start q :=
      hgrown.sameWays.start q
    have hresolve : (fs.add v (.file creationMode [])).resolve q = .ok fs.fresh :=
      resolve_eq_ok_iff.mpr ⟨ha, m, hstart ▸ hm⟩
    have hadded (s : Slot) (j : NodeId)
        (hj : (fs.add v (.file creationMode [])).holds s = some j) :
        fs.holds s = some j ∨ fs.holds s = none ∧ j = fs.fresh ∧ fs.node? fs.fresh = none := by
      rw [hslot] at hj
      split at hj
      · rename_i hsv
        cases hj
        exact .inr ⟨hsv ▸ hnone, rfl, fs.node?_fresh⟩
      · exact .inl hj
    obtain ⟨i, hi, hlink⟩ := exists_entry (hl.frame hgrown.sameWays) hn hresolve
    refine ⟨i, ⟨hgrown.root, hgrown.here, hkept, hadded, hother,
      .inr ⟨.inl fs.node?_fresh, _, _, hfile⟩, hi, ?_, hresolve⟩, .inl ⟨_, hfile⟩⟩
    rcases hlink with rfl | ⟨target, ht⟩
    · exact .inl rfl
    · rcases hadded t i hi with hold | ⟨-, hnew, -⟩
      · exact .inr ⟨hold, target, (hgrown.link_iff i target).mp ht⟩
      · exact .inl hnew
  · -- a node that was there
    rename_i i' hi'
    obtain ⟨m, hm⟩ := finds_of_walk _ _ _ _ _ hi'
    have hresolve : fs.resolve q = .ok i' := resolve_eq_ok_iff.mpr ⟨ha, m, hm⟩
    obtain ⟨i, hi, hlink⟩ := exists_entry hl hn hresolve
    have hbase (hop : (∃ mode kind, fs.node? i' = some (.device mode kind) ∧
        fs.node? i' = some (.device mode kind)) ∨ (fs.node? i' = none ∨ fs.IsFile i') ∧
        fs.IsFile i') : Opened fs fs q t i i' :=
      ⟨rfl, rfl, fun _ _ h => h, fun _ _ h => .inl h, fun _ _ => rfl, hop, hi,
        hlink.imp_right fun h => ⟨hi, h⟩, hresolve⟩
    split at h
    · rename_i mode data hfile
      cases h
      have hisfile : fs.IsFile k := ⟨mode, data, hfile⟩
      refine ⟨i, (hbase (.inr ⟨.inr hisfile, hisfile⟩)).write hisfile mode [], .inl ⟨mode, ?_⟩⟩
      rw [node?_setNode, if_pos rfl]
    · rename_i mode kind hdev
      cases h
      exact ⟨i, hbase (.inl ⟨mode, kind, hdev, hdev⟩), .inr ⟨mode, kind, hdev⟩⟩
    · cases h
    · cases h

/-! ### Renaming -/

/-- **What a renaming has done.** -/
theorem moved_of_rename (hp : fs.Locates p s) (hq : fs.Locates q t) (hs : Plain s.name)
    (ht : Plain t.name) (hj : fs.holds s = some j) (hdir : fs.isDirectory j = false) (hst : s ≠ t)
    (h : fs.rename p q = .ok fs') : Moved fs fs' s t j ∧ q.admit = .ok () ∧ Proper t.name := by
  obtain ⟨s', t', j', ⟨slash, hes⟩, ⟨slash', het⟩, ho, hlen, hres⟩ := renamed_of_rename h
  obtain ⟨⟨⟩, ha, -⟩ := bind_eq_ok_iff.mp hes
  obtain ⟨⟨⟩, ha', -⟩ := bind_eq_ok_iff.mp het
  cases (hp.entry_plain ha hs).symm.trans hes
  cases (hq.entry_plain ha' ht).symm.trans het
  cases hj.symm.trans (occupant_eq_ok_iff.mp ho).2
  refine ⟨?_, ha', ht.ne_dot, ht.ne_dotDot, hlen⟩
  obtain ⟨htj, rfl⟩ | ⟨hr, rfl⟩ := hres
  · exact moved_self hj htj hdir
  · refine moved_move hdir (fun k hk => ?_) hst
    unfold replaceable at hr
    simp only [hk, hdir] at hr
    cases hkd : fs.isDirectory k with
    | false => rfl
    | true => simp [hkd] at hr

/-- A file is renamed to any name that holds no directory. -/
theorem rename_ok (hp : fs.Locates p s) (ha : p.admit = .ok ()) (hs : Proper s.name)
    (hj : fs.holds s = some j) (hdir : fs.isDirectory j = false) (hq : fs.Locates q t)
    (ha' : q.admit = .ok ()) (ht : Proper t.name)
    (hfree : ∀ k, fs.holds t = some k → fs.isDirectory k = false) :
    ∃ fs', fs.rename p q = .ok fs' := by
  have hzero : p.bytes.contains 0 = false := by
    simpa using (Path.admit_eq_ok_iff.mp ha).1
  have hzero' : q.bytes.contains 0 = false := by
    simpa using (Path.admit_eq_ok_iff.mp ha').1
  have ho : fs.occupant s = .ok j := occupant_eq_ok_iff.mpr ⟨hs.length_le, hj⟩
  have hlen : ¬ t.name.length > maxName := Nat.not_lt.mpr ht.length_le
  have hbelow : (fs.holds t).any (fs.encloses · s.dir) = false := by
    cases hk : fs.holds t with
    | none => rfl
    | some k => exact encloses_of_not_directory (hfree k hk) s.dir
  have hreplace : fs.replaceable j t = .ok () := by
    unfold replaceable
    cases hk : fs.holds t with
    | none => rfl
    | some k => simp [hdir, hfree k hk]
  unfold rename
  rw [hzero, hzero', hp.entry_plain ha hs.plain, hq.entry_plain ha' ht.plain]
  simp only [bind, Except.bind, ho, hlen, hdir, encloses_of_not_directory hdir, hbelow, hreplace,
    Bool.or_self, Bool.not_false, Bool.and_false, Bool.false_eq_true, if_false]
  split
  · exact ⟨fs, rfl⟩
  · exact ⟨_, rfl⟩

/-! ### Lost paths -/

theorem entry_of_rename (h : fs.rename p q = .ok fs') :
    (∃ e, fs.entry p = .ok e) ∧ ∃ e, fs.entry q = .ok e := by
  obtain ⟨s, t, j, ⟨slash, hes⟩, ⟨slash', het⟩, -⟩ := renamed_of_rename h
  exact ⟨⟨_, hes⟩, _, het⟩

theorem entry_of_unlink (h : fs.unlink p = .ok fs') : ∃ e, fs.entry p = .ok e := by
  unfold unlink at h
  obtain ⟨e, he, -⟩ := bind_eq_ok_iff.mp h
  exact ⟨e, he⟩

theorem Lost.entry_ne (h : fs.Lost p) (hp : p.names ≠ []) (e : Entry) : fs.entry p ≠ .ok e := by
  obtain ⟨e', he'⟩ := h.entry hp
  rw [he']
  simp

theorem Lost.rename (h : fs.Lost p) (hp : p.names ≠ []) : fs.rename p q ≠ .ok fs' := by
  intro hr
  obtain ⟨⟨e, he⟩, -⟩ := entry_of_rename hr
  exact h.entry_ne hp e he

theorem Lost.unlink (h : fs.Lost p) (hp : p.names ≠ []) : fs.unlink p ≠ .ok fs' := by
  intro hu
  obtain ⟨e, he⟩ := entry_of_unlink hu
  exact h.entry_ne hp e he

end FileSystem
end StubInsertion
