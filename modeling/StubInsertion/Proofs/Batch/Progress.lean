import StubInsertion.Batch
import StubInsertion.Proofs.Files.Alike
import StubInsertion.Proofs.Replacement
import StubInsertion.Proofs.Source.Marks

/-! # Progress of a batch

`Reached block fs fs' done` says that `fs'` is `fs` with the block put into the files in the slots
`done`.  A batch keeps this up.

* **Listed paths.** A path that names a regular file with nothing beside it (`Regular`) names the
  same slot in every file system that is reached: it is as it was until its turn
  (`Reached.regular_of_notMem`) and marked from then on (`Reached.regular_of_mem`).  What cannot be
  read at first cannot be read later (`Reached.unreadable`).
* **Files.** What becomes of one path: `processFile_unreadable`, `processFile_marked`,
  `processFile_inserted`, `processFile_stuck`. -/

namespace StubInsertion

open FileSystem

namespace FileSystem

variable {fs fs' : FileSystem} {p : Path} {s : Slot} {mode : Mode} {data : Bytes}

/-- The last name of the path is a regular file, and there is nothing under the two names that a
replacement uses. -/
structure Regular (fs : FileSystem) (p : Path) (s : Slot) (mode : Mode) (data : Bytes) : Prop where
  admitted : p.admit = .ok ()
  located : fs.Locates p s
  name : Proper s.name
  shows : fs.Shows s (.file mode data)
  staged : fs.occupant? p.stagedPath = none
  backup : fs.occupant? p.backupPath = none

namespace Regular

theorem plain (h : fs.Regular p s mode data) : Plain s.name := h.name.plain

theorem entry (h : fs.Regular p s mode data) : fs.entry p = .ok (.slot s false) :=
  h.located.entry_plain h.admitted h.plain

theorem resolve (h : fs.Regular p s mode data) :
    ∃ i, fs.resolve p = .ok i ∧ fs.node? i = some (.file mode data) := by
  obtain ⟨i, hi, hnode⟩ := h.shows
  exact ⟨i, h.located.resolve h.admitted h.name hi (by simp [hnode]), hnode⟩

theorem contents (h : fs.Regular p s mode data) : fs.contents p = .ok data := by
  obtain ⟨i, hi, hnode⟩ := h.resolve
  exact contents_eq_ok_iff.mpr ⟨i, hi, .inl ⟨mode, hnode⟩⟩

theorem target (h : fs.Regular p s mode data) : fs.Target p s mode := by
  obtain ⟨i, hi, hnode⟩ := h.resolve
  obtain ⟨j, hj, hfile⟩ := h.shows
  refine ⟨h.admitted, h.located, status_of_resolve hi hnode, fun _ => ?_, ?_, ?_⟩
  · exact ⟨IsFile.deadEnd ⟨mode, data, hfile⟩ hj, j, hj⟩
  · intro k hk
    rw [h.staged] at hk
    cases hk
  · intro k hk
    rw [h.backup] at hk
    cases hk

end Regular

/-- A path that can be read locates the slot of its last name. -/
theorem exists_locates_of_contents {i : NodeId} {bytes : Bytes} (hc : fs.contents p = .ok bytes)
    (ho : fs.occupant? p = some i) :
    p.admit = .ok () ∧ ∃ s, fs.holds s = some i ∧ fs.Locates p s ∧ Proper s.name := by
  obtain ⟨k, hk, hdir⟩ := exists_resolve_of_contents hc
  obtain ⟨ha, s, hl, hplain⟩ := exists_locates hk hdir
  have hp : Plain s.name := by
    unfold FileSystem.occupant? at ho
    split at ho
    · rename_i hslot
      exact hl.plain_of_entry ha hslot
    · cases ho
  rw [hl.occupant? ha hp] at ho
  exact ⟨ha, s, ho, hl, hp.ne_dot, hp.ne_dotDot, (hplain hp).1⟩

/-- A path that can be read and whose last name is a regular file names that file. -/
theorem exists_regular {i : NodeId} {bytes : Bytes} (hc : fs.contents p = .ok bytes)
    (ho : fs.occupant? p = some i) (hi : fs.node? i = some (.file mode data))
    (hs : fs.occupant? p.stagedPath = none) (hb : fs.occupant? p.backupPath = none) :
    ∃ s, fs.holds s = some i ∧ fs.Regular p s mode data := by
  obtain ⟨ha, s, hh, hl, hn⟩ := exists_locates_of_contents hc ho
  exact ⟨s, hh, ha, hl, hn, ⟨i, hh, hi⟩, hs, hb⟩

/-- A new file fits beside the file, and the file can be moved aside: both names are short enough,
and so are the paths. -/
structure Fits (p : Path) (s : Slot) : Prop where
  path : p.bytes.length + 2 ≤ maxPath
  name : s.name.length + 2 ≤ maxName

instance (p : Path) (s : Slot) : Decidable (Fits p s) :=
  decidable_of_iff (p.bytes.length + 2 ≤ maxPath ∧ s.name.length + 2 ≤ maxName)
    ⟨fun h => ⟨h.1, h.2⟩, fun h => ⟨h.path, h.name⟩⟩

theorem Regular.room_iff (h : fs.Regular p s mode data) : fs.Room p s ↔ Fits p s := by
  have hS : p.stagedPath.admit = .ok () ↔ p.bytes.length + 1 ≤ maxPath :=
    Path.admit_sibling_iff h.admitted (by decide)
  have hB : p.backupPath.admit = .ok () ↔ p.bytes.length + 2 ≤ maxPath :=
    Path.admit_sibling_iff h.admitted (by decide)
  constructor
  · intro hr
    have hlen := hr.backup.length_le
    rw [length_backup] at hlen
    exact ⟨hB.mp hr.backup.admitted, hlen⟩
  · intro hf
    have h1 : p.stagedPath.admit = .ok () := hS.mpr (by have := hf.path; omega)
    have h2 : p.backupPath.admit = .ok () := hB.mpr hf.path
    have hl1 : s.staged.name.length ≤ maxName := by
      rw [length_staged]
      have := hf.name
      omega
    have hl2 : s.backup.name.length ≤ maxName := by
      rw [length_backup]
      exact hf.name
    have hv1 := (h.located.staged h.admitted).occupant? h1 (plain_staged s)
    have hv2 := (h.located.backup h.admitted).occupant? h2 (plain_backup s)
    exact ⟨h.name, ⟨h1, hl1, hv1.symm.trans h.staged⟩, ⟨h2, hl2, hv2.symm.trans h.backup⟩⟩

end FileSystem

namespace Batch

variable {block : Block} {fs fs' : FileSystem} {done : List Slot} {p : Path} {s : Slot}
  {mode : Mode} {data contents : Bytes} {line : Nat}

/-! ### What has been done -/

/-- The files in some slots got the block, and nothing else has changed. -/
structure Reached (block : Block) (fs fs' : FileSystem) (done : List Slot) : Prop where
  root : fs'.root = fs.root
  here : fs'.here = fs.here
  directory : ∀ i, fs.isDirectory i = true → fs'.node? i = fs.node? i
  only : ∀ i, fs'.isDirectory i = true → fs.isDirectory i = true
  kept : ∀ s, s ∉ done → fs.SameAt fs' s
  rewritten : ∀ s ∈ done, ∃ mode data line contents, fs.Shows s (.file mode data) ∧
    Source.plan data block = .insert line contents ∧ fs'.Owns s (.file mode contents)

namespace Reached

theorem refl (block : Block) (fs : FileSystem) : Reached block fs fs [] where
  root := rfl
  here := rfl
  directory _ _ := rfl
  only _ h := h
  kept s _ := .refl fs s
  rewritten _ h := absurd h List.not_mem_nil

theorem alike (h : Reached block fs fs' done) : fs.Alike fs' where
  root := h.root
  here := h.here
  directory := h.directory
  only := h.only
  slot s i hi := by
    by_cases hs : s ∈ done
    · obtain ⟨mode, data, line, contents, ⟨j, hj, hold⟩, -, k, hk, hnew, -⟩ := h.rewritten s hs
      cases hi.symm.trans hj
      exact ⟨k, hk, .inr ⟨⟨mode, data, hold⟩, mode, contents, hnew⟩⟩
    · obtain ⟨hh, hn⟩ := h.kept s hs
      exact ⟨i, hh.trans hi, .inl ⟨rfl, hn i hi⟩⟩

theorem alike_symm (h : Reached block fs fs' done) : fs'.Alike fs where
  root := h.root.symm
  here := h.here.symm
  directory i hi := (h.directory i (h.only i hi)).symm
  only i hi := by
    rw [FileSystem.isDirectory, h.directory i hi]
    exact hi
  slot s i hi := by
    by_cases hs : s ∈ done
    · obtain ⟨mode, data, line, contents, ⟨j, hj, hold⟩, -, k, hk, hnew, -⟩ := h.rewritten s hs
      cases hi.symm.trans hk
      exact ⟨j, hj, .inr ⟨⟨mode, contents, hnew⟩, mode, data, hold⟩⟩
    · obtain ⟨hh, hn⟩ := h.kept s hs
      rw [hh] at hi
      exact ⟨i, hi, .inl ⟨rfl, (hn i hi).symm⟩⟩

/-- Another file gets the block. -/
theorem add (h : Reached block fs fs' done) (hs : s ∉ done) (hold : fs.Shows s (.file mode data))
    (hplan : Source.plan data block = .insert line contents) :
    Reached block fs (fs'.add s (.file mode contents)) (s :: done) := by
  obtain ⟨i, hi, hnode⟩ := hold
  obtain ⟨hh, hn⟩ := h.kept s hs
  have hdead : fs'.DeadEnd s := IsFile.deadEnd ⟨mode, data, (hn i hi).trans hnode⟩ (hh.trans hi)
  have hw := rewritten_add hdead mode contents
  refine ⟨hw.root.trans h.root, hw.here.trans h.here, ?_, ?_, ?_, ?_⟩
  · intro k hk
    rw [hw.directory k (h.alike.sameWays.isDirectory hk), h.directory k hk]
  · intro k hk
    exact h.only k ((sameWays_add hdead mode contents).only k hk)
  · intro x hx
    rw [List.mem_cons, not_or] at hx
    exact (h.kept x hx.2).trans (hw.others x hx.1)
  · intro x hx
    by_cases hxs : x = s
    · subst hxs
      exact ⟨mode, data, line, contents, ⟨i, hi, hnode⟩, hplan, hw.entry⟩
    · have hx' : x ∈ done := by
        rw [List.mem_cons] at hx
        exact hx.resolve_left hxs
      obtain ⟨m, d, l, c, hshows, hp, k, hk, hk1, hk2⟩ := h.rewritten x hx'
      obtain ⟨hh2, hn2⟩ := hw.others x hxs
      refine ⟨m, d, l, c, hshows, hp, k, hh2.trans hk, (hn2 k hk).trans hk1, ?_⟩
      intro y hy
      -- the slot that was filled last holds another file
      by_cases hys : y = s
      · obtain ⟨n, hn, -, honly⟩ := hw.entry
        rw [hys, hn] at hy
        cases hy
        exact absurd (honly x (hh2.trans hk)) hxs
      · exact hk2 y ((hw.others y hys).holds ▸ hy)

/-- What cannot be read at first cannot be read later. -/
theorem unreadable (h : Reached block fs fs' done) {e : FileError} (hp : fs.contents p = .error e) :
    ∃ e', fs'.contents p = .error e' := by
  cases hc : fs'.contents p with
  | error e' => exact ⟨e', rfl⟩
  | ok data =>
      obtain ⟨data', hdata⟩ := h.alike_symm.contents hc
      rw [hp] at hdata
      cases hdata

/-- A batch leaves nothing under a name that was vacant. -/
theorem occupant?_eq_none (h : Reached block fs fs' done) (hl : fs.Locates p s)
    (hn : Plain s.name) (hv : fs.occupant? p = none) : fs'.occupant? p = none := by
  cases ho : fs'.occupant? p with
  | none => rfl
  | some i =>
      obtain ⟨ha, hi⟩ := ((hl.frame h.alike.sameWays).occupant?_eq_some_iff hn).mp ho
      rw [hl.occupant? ha hn] at hv
      by_cases hs : s ∈ done
      · obtain ⟨mode, data, line, contents, ⟨j, hj, -⟩, -⟩ := h.rewritten s hs
        rw [hv] at hj
        cases hj
      · rw [(h.kept s hs).holds, hv] at hi
        cases hi

theorem regular_of_shows (h : Reached block fs fs' done) (hr : fs.Regular p s mode data)
    {m : Mode} {bytes : Bytes} (hs : fs'.Shows s (.file m bytes)) : fs'.Regular p s m bytes where
  admitted := hr.admitted
  located := hr.located.frame h.alike.sameWays
  name := hr.name
  shows := hs
  staged := h.occupant?_eq_none (hr.located.staged hr.admitted) (plain_staged s) hr.staged
  backup := h.occupant?_eq_none (hr.located.backup hr.admitted) (plain_backup s) hr.backup

/-- A file that has not had its turn is still the same. -/
theorem regular_of_notMem (h : Reached block fs fs' done) (hr : fs.Regular p s mode data)
    (hs : s ∉ done) : fs'.Regular p s mode data := by
  obtain ⟨i, hi, hnode⟩ := hr.shows
  obtain ⟨hh, hn⟩ := h.kept s hs
  exact h.regular_of_shows hr ⟨i, hh.trans hi, (hn i hi).trans hnode⟩

/-- A file that has had its turn is marked. -/
theorem regular_of_mem (h : Reached block fs fs' done) (hr : fs.Regular p s mode data)
    (hs : s ∈ done) :
    ∃ contents, fs'.Regular p s mode contents ∧ Source.plan contents block = .alreadyMarked := by
  obtain ⟨m, d, line, contents, hshows, hplan, howns⟩ := h.rewritten s hs
  cases hshows.unique hr.shows
  exact ⟨contents, h.regular_of_shows hr howns.shows,
    Source.plan_eq_alreadyMarked_iff.mpr (Source.isMarked_of_plan hplan)⟩

end Reached

/-! ### Files -/

variable {w : World}

theorem runIn_unreadable {e : FileError} (h : w.files.contents p = .error e) (block : Block) :
    runIn w (processFile block p) = (.error ⟨[.read p], .file e⟩, w.after w.files) := by
  have hcall : (FileCalls.contents p : StateM World _).run w = (.error e, w.after w.files) :=
    World.look_error h
  exact runIn_bind_error (runIn_attempt_error _ hcall) _

theorem processFile_unreadable {e : FileError} (h : w.files.contents p = .error e)
    (block : Block) :
    ∃ failure w', runIn w (processFile block p) = (.error failure, w') ∧ w.Leaves w.files w' :=
  ⟨_, _, runIn_unreadable h block, rfl, rfl, rfl⟩

theorem runIn_read (h : w.files.contents p = .ok data) :
    runIn w (attempt (.read p) (FileCalls.contents p)) = (.ok data, w.after w.files) :=
  runIn_attempt_ok _ (World.look_ok h)

theorem processFile_marked (h : w.files.contents p = .ok data)
    (hplan : Source.plan data block = .alreadyMarked) :
    ∃ w', runIn w (processFile block p) = (.ok .alreadyMarked, w') ∧ w.Leaves w.files w' := by
  refine ⟨w.after w.files, ?_, rfl, rfl, rfl⟩
  unfold processFile
  rw [runIn_bind_ok (runIn_read h), hplan]
  rfl

theorem processFile_inserted (hr : w.files.Regular p s mode data)
    (hplan : Source.plan data block = .insert line contents) (hf : Fits p s) :
    ∃ w', runIn w (processFile block p) = (.ok (.inserted line), w') ∧
      w.Leaves (w.files.add s (.file mode contents)) w' := by
  obtain ⟨w', hrun, hw'⟩ := Replacement.replaceFile_of_room (w := w.after w.files) hr.target
    (hr.room_iff.mpr hf) contents
  refine ⟨w', ?_, hw'.files, hw'.output, hw'.errors⟩
  unfold processFile
  rw [runIn_bind_ok (runIn_read hr.contents), hplan]
  exact runIn_bind_ok hrun _

theorem processFile_stuck (hr : w.files.Regular p s mode data)
    (hplan : Source.plan data block = .insert line contents) (hf : ¬ Fits p s) :
    ∃ failure w', runIn w (processFile block p) = (.error failure, w') ∧ w.Leaves w.files w' := by
  obtain ⟨failure, w', hrun, hw'⟩ := Replacement.replaceFile_of_no_room (w := w.after w.files)
    hr.target (fun hroom => hf (hr.room_iff.mp hroom)) contents
  refine ⟨failure, w', ?_, hw'.files, hw'.output, hw'.errors⟩
  unfold processFile
  rw [runIn_bind_ok (runIn_read hr.contents), hplan]
  exact runIn_bind_error hrun _

end Batch
end StubInsertion
