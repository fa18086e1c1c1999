import StubInsertion.Replacement
import StubInsertion.Proofs.Files.Changes
import StubInsertion.Proofs.Files.Entries
import StubInsertion.Proofs.Worlds

/-! # Replacing a file, all or nothing

A path that names a file locates a slot, and its two siblings locate the slots beside it.  As long as
no file stands in these, `replaceFile` succeeds exactly when there is room for it
(`replaceFile_of_room`, `replaceFile_of_no_room`); it then comes to putting a new file into the slot
of the path, and otherwise to nothing at all. -/

namespace StubInsertion

/-- The slot in which the new contents are completed. -/
def Slot.staged (s : Slot) : Slot := ⟨s.dir, s.name ++ utf8 "~"⟩

/-- The slot in which the old file is kept while names are exchanged. -/
def Slot.backup (s : Slot) : Slot := ⟨s.dir, s.name ++ utf8 "~~"⟩

namespace FileSystem

variable {fs : FileSystem} {p : Path} {s : Slot} {mode : Mode}

/-- The path names a file with these permissions, and beside it there is no file under the two names
that a replacement uses. -/
structure Target (fs : FileSystem) (p : Path) (s : Slot) (mode : Mode) : Prop where
  admitted : p.admit = .ok ()
  located : fs.Locates p s
  status : fs.status p = .ok mode
  occupied : Plain s.name → fs.DeadEnd s ∧ ∃ j, fs.holds s = some j
  staged : fs.NoFile p.stagedPath
  backup : fs.NoFile p.backupPath

/-- A new file can be made beside the old one, and the old one be moved aside. -/
structure Room (fs : FileSystem) (p : Path) (s : Slot) : Prop where
  name : Proper s.name
  staged : fs.Free p.stagedPath s.staged
  backup : fs.Free p.backupPath s.backup

/-! ### Siblings -/

theorem plain_append (name : Name) {suffix : Bytes} (hne : suffix ≠ [])
    (hdot : 0x2e ∉ suffix) : Plain (name ++ suffix) := by
  obtain ⟨b, rest, rfl⟩ := List.exists_cons_of_ne_nil hne
  have hb : b ∈ name ++ b :: rest := by simp
  constructor
  · intro h
    rw [h] at hb
    simp [Path.dot] at hb
    exact hdot (by simp [hb])
  · intro h
    rw [h] at hb
    simp [Path.dotDot] at hb
    exact hdot (by simp [hb])

theorem plain_staged (s : Slot) : Plain s.staged.name :=
  plain_append s.name (by decide) (by decide)

theorem plain_backup (s : Slot) : Plain s.backup.name :=
  plain_append s.name (by decide) (by decide)

@[simp] theorem length_staged (s : Slot) : s.staged.name.length = s.name.length + 1 :=
  List.length_append

@[simp] theorem length_backup (s : Slot) : s.backup.name.length = s.name.length + 2 :=
  List.length_append

theorem staged_ne (s : Slot) : s.staged ≠ s := by
  intro h
  have := length_staged s
  rw [h] at this
  omega

theorem backup_ne (s : Slot) : s.backup ≠ s := by
  intro h
  have := length_backup s
  rw [h] at this
  omega

theorem staged_ne_backup (s : Slot) : s.staged ≠ s.backup := by
  intro h
  have := length_staged s
  rw [h, length_backup] at this
  omega

theorem Locates.staged (h : fs.Locates p s) (ha : p.admit = .ok ()) :
    fs.Locates p.stagedPath s.staged :=
  h.sibling (Path.admit_eq_ok_iff.mp ha).2.1 (by decide) (by decide)

theorem Locates.backup (h : fs.Locates p s) (ha : p.admit = .ok ()) :
    fs.Locates p.backupPath s.backup :=
  h.sibling (Path.admit_eq_ok_iff.mp ha).2.1 (by decide) (by decide)

theorem status_of_resolve {i : NodeId} {node : Node} (hp : fs.resolve p = .ok i)
    (hi : fs.node? i = some node) : fs.status p = .ok node.mode := by
  unfold status
  rw [bind_eq_ok_iff]
  exact ⟨i, hp, by rw [hi]⟩

/-- A path that leads to a regular file is one whose contents can be replaced. -/
theorem exists_target {i : NodeId} {data : Bytes} (hp : fs.resolve p = .ok i)
    (hi : fs.node? i = some (.file mode data)) (hs : fs.NoFile p.stagedPath)
    (hb : fs.NoFile p.backupPath) : ∃ s, fs.Target p s mode := by
  have hdir : fs.isDirectory i = false := by
    simp [FileSystem.isDirectory, hi, Node.isDirectory]
  obtain ⟨ha, s, hl, hplain⟩ := exists_locates hp hdir
  refine ⟨s, ha, hl, status_of_resolve hp hi, fun h => ?_, hs, hb⟩
  obtain ⟨-, hdead, j, hj, -⟩ := hplain h
  exact ⟨hdead, j, hj⟩

/-! ### The new file -/

section new

variable {q : Path} {t : Slot} {m : Mode} {contents : Bytes}

theorem node?_add_fresh (hv : fs.holds t = none) (node : Node) :
    (fs.add t node).node? fs.fresh = some node := by
  rw [node?_add_of_vacant _ hv, if_pos rfl]

theorem write_add (hv : fs.holds t = none) :
    (fs.add t (.file m [])).write fs.fresh contents = .ok (fs.add t (.file m contents)) := by
  unfold write
  rw [node?_add_fresh hv]
  exact congrArg Except.ok (setNode_add hv _ _)

theorem sync_add (hv : fs.holds t = none) : (fs.add t (.file m contents)).sync fs.fresh = .ok () := by
  unfold sync
  rw [node?_add_fresh hv]

theorem setMode_add (hl : fs.Locates q t) (hn : Plain t.name) (hf : fs.Free q t) (mode : Mode) :
    (fs.add t (.file m contents)).setMode q mode = .ok (fs.add t (.file mode contents)) := by
  have hl' := hl.frame (sameWays_add (deadEnd_of_vacant hf.vacant) m contents)
  have hh : (fs.add t (.file m contents)).holds t = some fs.fresh := by
    rw [holds_add, if_pos rfl]
  have hnode := node?_add_fresh hf.vacant (.file m contents)
  have hresolve := hl'.resolve hf.admitted (hf.proper hn) hh
    (by simp [hnode])
  unfold setMode
  rw [bind_eq_ok_iff]
  refine ⟨fs.fresh, hresolve, ?_⟩
  rw [hnode]
  exact congrArg Except.ok (setNode_add hf.vacant _ _)

/-- A new file is removed again without a trace. -/
theorem unlink_add (hl : fs.Locates q t) (hn : Plain t.name) (hf : fs.Free q t) (data : Bytes) :
    (fs.add t (.file m data)).unlink q = .ok fs := by
  have hl' := hl.frame (sameWays_add (deadEnd_of_vacant hf.vacant) m data)
  have hh : (fs.add t (.file m data)).holds t = some fs.fresh := by
    rw [holds_add, if_pos rfl]
  have hnd : (fs.add t (.file m data)).isDirectory fs.fresh = false := by
    rw [FileSystem.isDirectory, node?_add_fresh hf.vacant]
    rfl
  rw [unlink_eq_ok hl' hf.admitted (hf.proper hn) hh hnd,
    vacate_add hf.vacant]

end new

/-! ### Exchanging the files -/

section swap

/-- The old file can be moved aside exactly when there is room. -/
theorem Target.rename_eq_ok_iff (ht : fs.Target p s mode) (hS : fs.Free p.stagedPath s.staged)
    (m : Mode) (data : Bytes) {fs' : FileSystem} :
    (fs.add s.staged (.file m data)).rename p p.backupPath = .ok fs' ↔ fs.Room p s ∧
      ∃ j, fs.holds s = some j ∧ fs' = (fs.add s.staged (.file m data)).move j s s.backup := by
  have hw := sameWays_add (deadEnd_of_vacant hS.vacant) m data
  have hB := ht.located.backup ht.admitted
  have hs : (fs.add s.staged (.file m data)).holds s = fs.holds s := by
    rw [holds_add, if_neg (staged_ne s).symm]
  have hb : (fs.add s.staged (.file m data)).holds s.backup = fs.holds s.backup := by
    rw [holds_add, if_neg (staged_ne_backup s).symm]
  have hnofile : (fs.add s.staged (.file m data)).NoFile p.backupPath := by
    intro k hk
    rw [(hB.frame hw).occupant?_eq_some_iff (plain_backup s), hb] at hk
    rw [isDirectory_add _ hS.vacant hk.2]
    exact ht.backup k ((hB.occupant?_eq_some_iff (plain_backup s)).mpr hk)
  have hfile (hp : Plain s.name) (j : NodeId) (hj : (fs.add s.staged (.file m data)).holds s = some j) :
      (fs.add s.staged (.file m data)).isDirectory j = false := by
    rw [hs] at hj
    rw [isDirectory_add _ hS.vacant hj]
    exact ((ht.occupied hp).1 j hj).1
  rw [FileSystem.rename_eq_ok_iff (ht.located.frame hw) ht.admitted (hB.frame hw) (plain_backup s)
    hnofile hfile, hs]
  constructor
  · rintro ⟨hn, hf, hj⟩
    exact ⟨⟨hn, hS, hf.admitted, hf.length_le, hb ▸ hf.vacant⟩, hj⟩
  · rintro ⟨hr, hj⟩
    exact ⟨hr.name, ⟨hr.backup.admitted, hr.backup.length_le, hb.trans hr.backup.vacant⟩, hj⟩

theorem Target.swappable (ht : fs.Target p s mode) (hr : fs.Room p s) {j : NodeId}
    (hj : fs.holds s = some j) : fs.Swappable s s.staged s.backup j where
  file := ((ht.occupied hr.name.plain).1 j hj).1
  holds := hj
  staged := hr.staged.vacant
  backup := hr.backup.vacant
  ne := staged_ne_backup s

/-- Once the old file is out of the way, the new one takes its name and the old one is removed. -/
theorem Target.rename_unlink (ht : fs.Target p s mode) (hr : fs.Room p s) {j : NodeId}
    (hj : fs.holds s = some j) (m : Mode) (data : Bytes) :
    (fs.aside s s.staged s.backup j m data).rename p.stagedPath p =
        .ok (fs.swapped s s.staged s.backup j m data) ∧
      (fs.swapped s s.staged s.backup j m data).unlink p.backupPath =
        .ok (fs.add s (.file m data)) := by
  have hplain := hr.name.plain
  have hdead := (ht.occupied hplain).1
  have hsw := ht.swappable hr hj
  have hS := ht.located.staged ht.admitted
  have hB := ht.located.backup ht.admitted
  -- none of the three slots is on a way to the directory
  have hstaged := deadEnd_of_vacant hr.staged.vacant
  have hw : SameWays fs (fs.aside s s.staged s.backup j m data) :=
    (sameWays_add hstaged m data).move hdead (deadEnd_of_vacant hr.backup.vacant)
      (hsw.isDirectory_old m data) (hsw.vacant_backup m data)
  have hw' : SameWays fs (fs.swapped s s.staged s.backup j m data) :=
    hw.move hstaged hdead (hsw.isDirectory_new m data) (hsw.vacant_aside m data)
  constructor
  · have hnofile : (fs.aside s s.staged s.backup j m data).NoFile p := by
      intro k hk
      rw [(ht.located.frame hw).occupant?_eq_some_iff hplain, hsw.vacant_aside] at hk
      cases hk.2
    have hfile (_ : Plain s.staged.name) (k : NodeId)
        (hk : (fs.aside s s.staged s.backup j m data).holds s.staged = some k) :
        (fs.aside s s.staged s.backup j m data).isDirectory k = false := by
      cases (hsw.staged_aside m data).symm.trans hk
      exact hsw.isDirectory_new m data
    rw [FileSystem.rename_eq_ok_iff (hS.frame hw) hr.staged.admitted (ht.located.frame hw) hplain
      hnofile hfile]
    exact ⟨hr.staged.proper (plain_staged s),
      ⟨ht.admitted, hr.name.length_le, hsw.vacant_aside m data⟩, fs.fresh,
      hsw.staged_aside m data, rfl⟩
  · rw [unlink_eq_ok (hB.frame hw') hr.backup.admitted (hr.backup.proper (plain_backup s))
      (hsw.backup_swapped m data) (hsw.isDirectory_swapped m data), hsw.vacate_swapped]

end swap

end FileSystem

namespace Replacement

open FileSystem

variable {fs : FileSystem} {p q : Path} {s t : Slot} {mode : Mode} {w w' : World}

/-! ### Stages -/

/-- A new file that was made is completed. -/
theorem runIn_stage (hl : fs.Locates q t) (hn : Plain t.name) (hf : fs.Free q t)
    (hw : w.files = fs.add t (.file creationMode [])) (contents : Bytes) (mode : Mode) :
    ∃ w', runIn w (stage q (fs.fresh : FileCalls.Handle (StateM World)) contents mode) = (.ok (), w') ∧
      w.Leaves (fs.add t (.file mode contents)) w' := by
  -- what is left to do once the bytes are there
  have hrest {u : World} (hu : w.Leaves (fs.add t (.file creationMode contents)) u) :
      ∃ u', runIn u (do
          attempt (.sync q) (FileCalls.sync (fs.fresh : FileCalls.Handle (StateM World)))
          attempt (.setPermissions q) (FileCalls.setMode q mode)) = (.ok (), u') ∧
        w.Leaves (fs.add t (.file mode contents)) u' := by
    have hsync : u.files.sync fs.fresh = .ok () := by
      rw [hu.files]
      exact sync_add hf.vacant
    have hmode : u.files.setMode q mode = .ok (fs.add t (.file mode contents)) := by
      rw [hu.files]
      exact setMode_add hl hn hf mode
    have h1 : runIn u (attempt (.sync q) (FileCalls.sync (fs.fresh : FileCalls.Handle (StateM World)))) =
        (.ok (), u.after u.files) := runIn_attempt_ok _ (World.look_ok hsync)
    have h2 : runIn (u.after u.files) (attempt (.setPermissions q) (FileCalls.setMode q mode)) =
        (.ok (), (u.after u.files).after (fs.add t (.file mode contents))) :=
      runIn_attempt_ok _ (World.change_ok hmode)
    exact ⟨_, (runIn_bind_ok h1 _).trans h2, (hu.after _).after _⟩
  unfold stage
  dsimp only
  split
  · rename_i hempty
    rw [List.isEmpty_iff] at hempty
    subst hempty
    exact hrest ⟨hw, rfl, rfl⟩
  · have hwrite : w.files.write fs.fresh contents = .ok (fs.add t (.file creationMode contents)) := by
      rw [hw]
      exact write_add hf.vacant
    have h1 : runIn w (attempt (.write q)
        (FileCalls.write (fs.fresh : FileCalls.Handle (StateM World)) contents)) =
        (.ok (), w.after (fs.add t (.file creationMode contents))) :=
      runIn_attempt_ok _ (World.change_ok hwrite)
    rw [runIn_bind_ok h1]
    exact hrest ⟨rfl, rfl, rfl⟩

theorem runIn_swap_error {e : FileError} (h : w.files.rename p p.backupPath = .error e) :
    runIn w (swap p) = (.error ⟨[.rename p p.backupPath], .file e⟩, w.after w.files) :=
  runIn_bind_error (runIn_attempt_error _ (World.change_error h)) _

theorem runIn_swap_ok {fs fs' : FileSystem} (h : w.files.rename p p.backupPath = .ok fs)
    (h' : fs.rename p.stagedPath p = .ok fs') :
    runIn w (swap p) = (.ok (), (w.after fs).after fs') := by
  have h1 : runIn w (attempt (.rename p p.backupPath) (FileCalls.rename p p.backupPath)) =
      (.ok (), w.after fs) := runIn_attempt_ok _ (World.change_ok h)
  have h2 : (FileCalls.rename p.stagedPath p : StateM World _).run (w.after fs) =
      (.ok (), (w.after fs).after fs') := World.change_ok h'
  unfold swap
  rw [runIn_bind_ok h1]
  unfold runIn ExceptT.mk ExceptT.run StateT.run at *
  simp only [bind, StateT.bind, h2]
  rfl

/-- If the new file does not get the name of the old one, the old one is renamed once more. -/
theorem runIn_swap_restoring {fs : FileSystem} {e : FileError} {answer : Except FileError Unit}
    (h : w.files.rename p p.backupPath = .ok fs) (h' : fs.rename p.stagedPath p = .error e)
    (hr : (FileCalls.rename p.backupPath p : StateM World _).run ((w.after fs).after fs) =
      (answer, w')) :
    runIn w (swap p) = (.error ⟨[.rename p.stagedPath p], .file e⟩, w') := by
  have h1 : runIn w (attempt (.rename p p.backupPath) (FileCalls.rename p p.backupPath)) =
      (.ok (), w.after fs) := runIn_attempt_ok _ (World.change_ok h)
  have h2 : (FileCalls.rename p.stagedPath p : StateM World _).run (w.after fs) =
      (.error e, (w.after fs).after fs) := World.change_error h'
  unfold swap
  rw [runIn_bind_ok h1]
  unfold runIn ExceptT.mk ExceptT.run StateT.run at *
  simp only [bind, StateT.bind, h2, hr]
  rfl

theorem runIn_discarding_ok {body : ExceptT Failure (StateM World) Unit}
    (h : runIn w body = (.ok (), w')) : runIn w (discarding q body) = (.ok (), w') := by
  unfold discarding runIn ExceptT.mk ExceptT.run StateT.run at *
  simp only [bind, StateT.bind, h]
  rfl

/-- A failure is followed by a call that removes the file under the path. -/
theorem runIn_discarding_error {body : ExceptT Failure (StateM World) Unit} {failure : Failure}
    {w'' : World} {answer : Except FileError Unit} (h : runIn w body = (.error failure, w'))
    (hu : (FileCalls.unlink q : StateM World _).run w' = (answer, w'')) :
    runIn w (discarding q body) = (.error failure, w'') := by
  unfold discarding runIn ExceptT.mk ExceptT.run StateT.run at *
  simp only [bind, StateT.bind, h, hu]
  rfl

/-! ### The whole sequence -/

theorem runIn_status (ht : fs.Target p s mode) (hw : w.files = fs) :
    ∃ w', runIn w (attempt (.stat p) (FileCalls.status p)) = (.ok mode, w') ∧ w.Leaves fs w' := by
  subst hw
  exact ⟨_, runIn_attempt_ok _ (World.look_ok ht.status), rfl, rfl, rfl⟩

theorem runIn_create (ht : fs.Target p s mode) (hS : fs.Free p.stagedPath s.staged)
    (hw : w.files = fs) :
    ∃ w', runIn w (attempt (.create p.stagedPath) (FileCalls.create p.stagedPath)) =
        (.ok (fs.fresh : FileCalls.Handle (StateM World)), w') ∧
      w.Leaves (fs.add s.staged (.file creationMode [])) w' := by
  subst hw
  have hcreate := (create_eq_ok_iff (ht.located.staged ht.admitted) (plain_staged s) ht.staged).mpr
    ⟨hS, rfl⟩
  exact ⟨_, runIn_attempt_ok _ (World.opened_ok hcreate), rfl, rfl, rfl⟩

/-- **With room for it, a new file takes the place of the old one.** -/
theorem replaceFile_of_room (ht : w.files.Target p s mode) (hr : w.files.Room p s)
    (contents : Bytes) :
    ∃ w', runIn w (replaceFile p contents) = (.ok (), w') ∧
      w.Leaves (w.files.add s (.file mode contents)) w' := by
  obtain ⟨-, j, hj⟩ := ht.occupied hr.name.plain
  obtain ⟨hrename, hunlink⟩ := ht.rename_unlink hr hj mode contents
  obtain ⟨w1, h1, hw1⟩ := runIn_status ht rfl
  obtain ⟨w2, h2, hw2⟩ := runIn_create ht hr.staged hw1.files
  obtain ⟨w3, h3, hw3⟩ := runIn_stage (ht.located.staged ht.admitted) (plain_staged s) hr.staged
    hw2.files contents mode
  have haside : w3.files.rename p p.backupPath =
      .ok (w.files.aside s s.staged s.backup j mode contents) := by
    rw [hw3.files]
    exact (ht.rename_eq_ok_iff hr.staged mode contents).mpr ⟨hr, j, hj, rfl⟩
  obtain ⟨w4, h4, hw4⟩ : ∃ w4, runIn w3 (swap p) = (.ok (), w4) ∧
      w3.Leaves (w.files.swapped s s.staged s.backup j mode contents) w4 :=
    ⟨_, runIn_swap_ok haside hrename, rfl, rfl, rfl⟩
  have h34 := runIn_discarding_ok (q := p.stagedPath) ((runIn_bind_ok h3 fun _ => swap p).trans h4)
  rw [← hw4.files] at hunlink
  have hcall : (FileCalls.unlink p.backupPath : StateM World _).run w4 = (.ok (), w4.after _) :=
    World.change_ok hunlink
  refine ⟨_, ?_, (((hw1.trans hw2).trans hw3).trans hw4).after _⟩
  unfold replaceFile
  rw [runIn_bind_ok h1, runIn_bind_ok h2, runIn_bind_ok h34]
  exact runIn_attempt_ok _ hcall

/-- **Without room for it, nothing is changed.** -/
theorem replaceFile_of_no_room (ht : w.files.Target p s mode) (hr : ¬ w.files.Room p s)
    (contents : Bytes) :
    ∃ failure w', runIn w (replaceFile p contents) = (.error failure, w') ∧
      w.Leaves w.files w' := by
  have hS := ht.located.staged ht.admitted
  obtain ⟨w1, h1, hw1⟩ := runIn_status ht rfl
  unfold replaceFile
  rw [runIn_bind_ok h1]
  cases hc : w.files.create p.stagedPath with
  | error e =>
      rw [← hw1.files] at hc
      have hcall : (FileCalls.create p.stagedPath : StateM World _).run w1 =
          (.error e, w1.after w1.files) := World.opened_error hc
      refine ⟨_, _, runIn_bind_error (runIn_attempt_error _ hcall) _, ?_⟩
      rw [hw1.files]
      exact hw1.after _
  | ok r =>
      obtain ⟨hfree, -⟩ := (create_eq_ok_iff hS (plain_staged s) ht.staged).mp hc
      obtain ⟨w2, h2, hw2⟩ := runIn_create ht hfree hw1.files
      obtain ⟨w3, h3, hw3⟩ := runIn_stage hS (plain_staged s) hfree hw2.files contents mode
      -- the old file stays in its place, so the new one is all there is to remove
      obtain ⟨e, haside⟩ : ∃ e, w3.files.rename p p.backupPath = .error e := by
        cases h : w3.files.rename p p.backupPath with
        | error e => exact ⟨e, rfl⟩
        | ok fs' =>
            rw [hw3.files] at h
            exact absurd ((ht.rename_eq_ok_iff hfree mode contents).mp h).1 hr
      obtain ⟨w4, h4, hw4⟩ : ∃ w4, runIn w3 (swap p) =
          (.error ⟨[.rename p p.backupPath], .file e⟩, w4) ∧ w3.Leaves w3.files w4 :=
        ⟨_, runIn_swap_error haside, rfl, rfl, rfl⟩
      have hunlink : w4.files.unlink p.stagedPath = .ok w.files := by
        rw [hw4.files, hw3.files]
        exact unlink_add hS (plain_staged s) hfree _
      have hcall : (FileCalls.unlink p.stagedPath : StateM World _).run w4 =
          (.ok (), w4.after w.files) := World.change_ok hunlink
      have h34 := runIn_discarding_error ((runIn_bind_ok h3 fun _ => swap p).trans h4) hcall
      rw [runIn_bind_ok h2]
      exact ⟨_, _, runIn_bind_error h34 _, (((hw1.trans hw2).trans hw3).trans hw4).after _⟩

/-- In the slot of the path stands a new file, and beside it nothing. -/
theorem entries_of_room (ht : fs.Target p s mode) (hr : fs.Room p s) (m : Mode) (data : Bytes) :
    fs.entry p = .ok (.slot s false) ∧
      (fs.add s (.file m data)).entry p = .ok (.slot s false) ∧
      (fs.add s (.file m data)).occupant? p.stagedPath = none ∧
      (fs.add s (.file m data)).occupant? p.backupPath = none := by
  have hplain := hr.name.plain
  have hw := sameWays_add (ht.occupied hplain).1 m data
  have hS := (ht.located.staged ht.admitted).frame hw
  have hB := (ht.located.backup ht.admitted).frame hw
  refine ⟨ht.located.entry_plain ht.admitted hplain,
    (ht.located.frame hw).entry_plain ht.admitted hplain, ?_, ?_⟩
  · rw [hS.occupant? hr.staged.admitted (plain_staged s), holds_add, if_neg (staged_ne s)]
    exact hr.staged.vacant
  · rw [hB.occupant? hr.backup.admitted (plain_backup s), holds_add, if_neg (backup_ne s)]
    exact hr.backup.vacant

theorem slot_eq_of_entry (ht : fs.Target p s mode) {t : Slot} {slash : Bool}
    (h : fs.entry p = .ok (.slot t slash)) : t = s := by
  rw [ht.located.entry ht.admitted] at h
  split at h
  · cases h
  · cases h
    rfl

/-- **A replacement happens as a whole or not at all.** If it succeeds, the path names a file of its
own with the new contents and the old permissions, both siblings are gone and every other entry is as
it was; if it fails, so is the whole file system. It succeeds exactly when there is room for it. -/
theorem replaceFile_all_or_nothing (w : World) (p : Path) (contents : Bytes) {i : NodeId}
    {mode : Mode} {data : Bytes} (hp : w.files.resolve p = .ok i)
    (hi : w.files.node? i = some (.file mode data)) (hs : w.files.NoFile p.stagedPath)
    (hb : w.files.NoFile p.backupPath) :
    (match runIn w (replaceFile p contents) with
      | (.ok (), w') => (∃ s, w.files.entry p = .ok (.slot s false) ∧
            w'.files.entry p = .ok (.slot s false) ∧
            w.files.Rewritten w'.files s (.file mode contents)) ∧
          w'.files.occupant? p.stagedPath = none ∧ w'.files.occupant? p.backupPath = none
      | (.error _, w') => w'.files = w.files) ∧
    ((runIn w (replaceFile p contents)).1 = .ok () ↔
      ∃ s, w.files.entry p = .ok (.slot s false) ∧ w.files.Room p s) := by
  obtain ⟨s, ht⟩ := exists_target hp hi hs hb
  by_cases hr : w.files.Room p s
  · obtain ⟨w', hrun, hw'⟩ := replaceFile_of_room ht hr contents
    obtain ⟨hbefore, hafter, hstaged, hbackup⟩ := entries_of_room ht hr mode contents
    have hdead := (ht.occupied hr.name.plain).1
    rw [hrun]
    dsimp only
    rw [hw'.files]
    exact ⟨⟨⟨s, hbefore, hafter, rewritten_add hdead mode contents⟩, hstaged, hbackup⟩,
      fun _ => ⟨s, hbefore, hr⟩, fun _ => rfl⟩
  · obtain ⟨failure, w', hrun, hw'⟩ := replaceFile_of_no_room ht hr contents
    rw [hrun]
    refine ⟨hw'.files, ?_⟩
    constructor
    · intro h
      cases h
    · rintro ⟨t, hentry, hroom⟩
      rw [slot_eq_of_entry ht hentry] at hroom
      exact absurd hroom hr

/-- A file and a symbolic link to it. -/
def linked : FileSystem :=
  (FileSystem.initial.add ⟨4, utf8 "a"⟩ (.file 0o600 (utf8 "x\n"))).add ⟨4, utf8 "l"⟩
    (.symlink (.ofString "a"))

/-- A link is replaced by a file of its own, its target is left alone. -/
theorem replaceFile_all_or_nothing_link :
    linked.resolve (.ofString "l") = .ok 5 ∧
      linked.node? 5 = some (.file 0o600 (utf8 "x\n")) ∧
      linked.NoFile (Path.ofString "l").stagedPath ∧
      linked.NoFile (Path.ofString "l").backupPath ∧
      ∃ w' s, runIn (World.of linked .unlimited) (replaceFile (.ofString "l") (utf8 "y\n")) =
          (.ok (), w') ∧ linked.entry (.ofString "l") = .ok (.slot s false) ∧
        linked.Rewritten w'.files s (.file 0o600 (utf8 "y\n")) := by
  have hp : linked.resolve (.ofString "l") = .ok 5 := rfl
  have hi : linked.node? 5 = some (.file 0o600 (utf8 "x\n")) := by decide +kernel
  have hs : linked.NoFile (Path.ofString "l").stagedPath := by
    have hnone : linked.occupant? (Path.ofString "l").stagedPath = none := by decide +kernel
    simp [FileSystem.NoFile, hnone]
  have hb : linked.NoFile (Path.ofString "l").backupPath := by
    have hnone : linked.occupant? (Path.ofString "l").backupPath = none := by decide +kernel
    simp [FileSystem.NoFile, hnone]
  refine ⟨hp, hi, hs, hb, ?_⟩
  have hok : (runIn (World.of linked .unlimited)
      (replaceFile (.ofString "l") (utf8 "y\n"))).1.isOk = true := by decide +kernel
  obtain ⟨h, -⟩ := replaceFile_all_or_nothing (World.of linked .unlimited) (.ofString "l")
    (utf8 "y\n") hp hi hs hb
  generalize runIn (World.of linked .unlimited)
    (replaceFile (.ofString "l") (utf8 "y\n")) = result at h hok
  obtain ⟨⟨⟩ | ⟨⟨⟩⟩, w'⟩ := result
  · cases hok
  · obtain ⟨⟨s, hentry, -, hs⟩, -⟩ := h
    exact ⟨w', s, rfl, hentry, hs⟩

end Replacement
end StubInsertion
