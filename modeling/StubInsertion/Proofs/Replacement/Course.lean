import StubInsertion.Proofs.Replacement.Stages

/-! # The course of a replacement

The calls of a replacement one after the other, whatever stands at the siblings of the path.

* **New file.** `course_stage`: its bytes and permissions are written, or it is a device and has
  none (`OnDevice`).
* **Names.** `course_swap`: the two files exchange their names, or the old one stays, or the path
  is lost together with its siblings (`Halted`).
* **Whole.** `replaceFile_course` puts the parts together: which files a run leaves after each call
  and in the end. -/

namespace StubInsertion

namespace Replacement

open FileSystem

variable {fs x y z : FileSystem} {p q : Path} {s : Slot} {i j k : NodeId} {mode : Mode}
  {contents : Bytes}

/-! ### Completing the new file -/

/-- The node `k` is open for writing and is a file with these bytes, unless it is a device. -/
def Writing (fs : FileSystem) (p : Path) (s : Slot) (k : NodeId) (bytes : Bytes)
    (x : FileSystem) : Prop :=
  ∃ i, Opened fs x p.stagedPath s.staged i k ∧
    ((∃ m, x.node? k = some (.file m bytes)) ∨ ∃ m kind, fs.node? k = some (.device m kind))

/-- A device has been opened. -/
def OnDevice (fs : FileSystem) (p : Path) (s : Slot) (k : NodeId) (x : FileSystem) : Prop :=
  ∃ i, Opened fs x p.stagedPath s.staged i k ∧ ∃ m kind, fs.node? k = some (.device m kind)

theorem Writing.stage {bytes : Bytes} {new : Node} (h : Writing fs p s k bytes x) :
    Stage fs p s j new x := by
  obtain ⟨i, hx, -⟩ := h
  exact .opened hx

theorem Writing.write (h : Writing fs p s k [] x) (hw : x.write k contents = .ok y) :
    Writing fs p s k contents y := by
  unfold FileSystem.write at hw
  obtain ⟨i, hx, ⟨m, hfile⟩ | ⟨m, kind, hdev⟩⟩ := h
  · rw [hfile] at hw
    cases hw
    exact ⟨i, hx.write ⟨m, [], hfile⟩ m contents, .inl ⟨m, by rw [node?_setNode, if_pos rfl]⟩⟩
  · rw [hx.device hdev] at hw
    cases kind with
    | null =>
        cases hw
        exact ⟨i, hx, .inr ⟨m, _, hdev⟩⟩
    | full => cases hw

theorem Writing.write_error {e : FileError} (h : Writing fs p s k [] x)
    (hw : x.write k contents = .error e) : OnDevice fs p s k x := by
  unfold FileSystem.write at hw
  obtain ⟨i, hx, ⟨m, hfile⟩ | hdev⟩ := h
  · rw [hfile] at hw
    cases hw
  · exact ⟨i, hx, hdev⟩

/-- Only a file is ever on the disk. -/
theorem Writing.sync (h : Writing fs p s k contents x) (hw : x.sync k = .ok ()) :
    ∃ i m, Opened fs x p.stagedPath s.staged i k ∧ x.node? k = some (.file m contents) := by
  unfold FileSystem.sync at hw
  obtain ⟨i, hx, ⟨m, hfile⟩ | ⟨m, kind, hdev⟩⟩ := h
  · exact ⟨i, m, hx, hfile⟩
  · rw [hx.device hdev] at hw
    cases hw

theorem Writing.sync_error {e : FileError} (h : Writing fs p s k contents x)
    (hw : x.sync k = .error e) : OnDevice fs p s k x := by
  unfold FileSystem.sync at hw
  obtain ⟨i, hx, ⟨m, hfile⟩ | hdev⟩ := h
  · rw [hfile] at hw
    cases hw
  · exact ⟨i, hx, hdev⟩

theorem setMode_opened {m : Mode} (hx : Opened fs x p.stagedPath s.staged i k)
    (hfile : x.node? k = some (.file m contents)) (mode : Mode) :
    ∃ y, x.setMode p.stagedPath mode = .ok y ∧ Staged fs y p s i k (.file mode contents) := by
  refine ⟨x.setNode k (.file mode contents), ?_, hx.write ⟨m, contents, hfile⟩ mode contents, ?_⟩
  · unfold setMode
    rw [bind_eq_ok_iff]
    refine ⟨k, hx.resolve, ?_⟩
    rw [hfile]
    rfl
  · rw [node?_setNode, if_pos rfl]

/-- The new file is completed, or it is a device. -/
theorem course_stage (fs : FileSystem) (p : Path) (s : Slot) (j k : NodeId) (mode : Mode)
    (contents : Bytes) :
    Course (Writing fs p s k [])
      (stage p.stagedPath (k : FileCalls.Handle (StateM World)) contents mode)
      (Stage fs p s j (.file mode contents))
      (fun _ x => ∃ i, Staged fs x p s i k (.file mode contents)) (OnDevice fs p s k) := by
  -- what is left to do once the bytes are there
  have hrest : Course (Writing fs p s k contents) (do
        attempt (.sync p.stagedPath) (FileCalls.sync (k : FileCalls.Handle (StateM World)))
        attempt (.setPermissions p.stagedPath) (FileCalls.setMode p.stagedPath mode))
      (Stage fs p s j (.file mode contents))
      (fun _ x => ∃ i, Staged fs x p s i k (.file mode contents)) (OnDevice fs p s k) := by
    refine Course.bind (course_look _ (fun _ h => h.stage) (fun _ _ h hs => h.sync hs)
      fun _ _ h hs => h.sync_error hs) fun _ => ?_
    refine course_change _ ?_ ?_ ?_
    · rintro x ⟨i, m, hx, -⟩
      exact .opened hx
    · rintro x y ⟨i, m, hx, hfile⟩ hm
      obtain ⟨y', hm', hy⟩ := setMode_opened hx hfile mode
      cases hm.symm.trans hm'
      exact ⟨.opened hy.toOpened, i, hy⟩
    · rintro x e ⟨i, m, hx, hfile⟩ hm
      obtain ⟨y', hm', -⟩ := setMode_opened hx hfile mode
      cases hm.symm.trans hm'
  unfold stage
  dsimp only
  split
  · rename_i hempty
    rw [List.isEmpty_iff] at hempty
    subst hempty
    exact hrest
  · exact Course.bind (course_change _ (fun _ h => h.stage)
      (fun _ _ h hw => ⟨(h.write hw).stage, h.write hw⟩) fun _ _ h hw => h.write_error hw)
      fun _ => hrest

/-! ### Exchanging the names -/

/-- The files when a replacement fails, before the new file is removed. -/
inductive Halted (fs : FileSystem) (p : Path) (s : Slot) (j k : NodeId) (new : Node) :
    FileSystem → Prop
  | opened {x : FileSystem} {i : NodeId} (hx : Opened fs x p.stagedPath s.staged i k)
      (h : (∃ mode kind, fs.node? k = some (.device mode kind)) ∨
        ∀ y, x.rename p p.backupPath ≠ .ok y) : Halted fs p s j k new x
  | lost {y : FileSystem} {i : NodeId} (hy : SetAside fs y p s j i k new) (h : y.Lost p) :
      Halted fs p s j k new y

theorem OnDevice.halted {new : Node} (h : OnDevice fs p s k x) : Halted fs p s j k new x := by
  obtain ⟨i, hx, hdev⟩ := h
  exact .opened hx (.inl hdev)

/-- If the old file cannot be renamed, it stays; if the new one cannot, the path is lost. -/
theorem course_swap {new : Node} (hs : fs.Site p s j) :
    Course (fun x => ∃ i, Staged fs x p s i k new) (swap p) (Stage fs p s j new)
      (fun _ z => ∃ i, Exchanged fs z p s j i k new) (Halted fs p s j k new) := by
  rintro w ⟨i, hx⟩
  cases hr : w.files.rename p p.backupPath with
  | error e =>
      exact ⟨_, _, runIn_swap_error hr, w.passes_after (.opened hx.toOpened),
        .opened hx.toOpened (.inr fun y hy => by cases hr.symm.trans hy)⟩
  | ok y =>
  obtain ⟨hm, ha, hn⟩ := hx.moved hs hr
  have hy : SetAside fs y p s j i k new := ⟨⟨_, hx, hm⟩, ha, hn⟩
  have hpass : w.Passes (Stage fs p s j new) (w.after y) := w.passes_after (.setAside hy)
  cases hr' : y.rename p.stagedPath p with
  | ok z =>
      have hl : y.Locates p s := (hy.or_lost hs).resolve_right fun hlost =>
        (hs.lost_staged hlost).rename hs.names_ne_nil.1 hr'
      obtain ⟨hm', -, -⟩ := moved_of_rename (hl.staged hs.admitted) hl (plain_staged s)
        hs.name.plain hy.holds_staged (hy.inert_staged hs).1 (staged_ne s) hr'
      have hz : Exchanged fs z p s j i k new := ⟨⟨y, hy, hl, hm'⟩⟩
      exact ⟨_, _, runIn_swap_ok hr hr', hpass.trans ((w.after y).passes_after (.exchanged hz)),
        i, hz⟩
  | error e =>
      have hlost : y.Lost p := by
        refine (hy.or_lost hs).resolve_left fun hl => ?_
        obtain ⟨z, hz⟩ := hy.rename_staged hs hl
        cases hr'.symm.trans hz
      -- the old file cannot be moved back either
      cases hr'' : y.rename p.backupPath p with
      | ok z => exact absurd hr'' ((hs.lost_backup hlost).rename hs.names_ne_nil.2)
      | error e' =>
          have hcall : (FileCalls.rename p.backupPath p : StateM World _).run
              ((w.after y).after y) = (.error e', ((w.after y).after y).after y) :=
            World.change_error hr''
          exact ⟨_, _, runIn_swap_restoring hr hr' hcall,
            (hpass.trans (World.passes_after _ (.setAside hy))).trans
              (World.passes_after _ (.setAside hy)), .lost hy hlost⟩

/-! ### The whole sequence -/

/-- A failure is followed by an attempt to remove the file under the path. -/
theorem course_discarding {P I E E' : FileSystem → Prop} {Q : Unit → FileSystem → Prop}
    {body : ExceptT Failure (StateM World) Unit} (hb : Course P body I Q E')
    (hok : ∀ x x', E' x → x.unlink q = .ok x' → I x' ∧ E x')
    (herror : ∀ x e, E' x → x.unlink q = .error e → I x ∧ E x) :
    Course P (discarding q body) I Q E := by
  intro w hw
  obtain ⟨result, w', hrun, hpass, hend⟩ := hb w hw
  cases result with
  | ok u => exact ⟨_, w', runIn_discarding_ok hrun, hpass, hend⟩
  | error failure =>
      cases hu : w'.files.unlink q with
      | ok x =>
          obtain ⟨hI, hE⟩ := hok _ x hend hu
          exact ⟨_, _, runIn_discarding_error hrun (World.change_ok hu),
            hpass.trans (w'.passes_after hI), hE⟩
      | error e =>
          obtain ⟨hI, hE⟩ := herror _ e hend hu
          exact ⟨_, _, runIn_discarding_error hrun (World.change_error hu),
            hpass.trans (w'.passes_after hI), hE⟩

/-- What follows once a file is open for the new contents. -/
theorem course_of_writing (hs : fs.Site p s j) (mode : Mode) (contents : Bytes) :
    Course (Writing fs p s k []) (do
        discarding p.stagedPath do
          stage p.stagedPath (k : FileCalls.Handle (StateM World)) contents mode
          swap p
        attempt (.remove p.backupPath) (FileCalls.unlink p.backupPath))
      (Stage fs p s j (.file mode contents)) (fun _ => Finished fs p s j k (.file mode contents))
      (Stopped fs p s j k (.file mode contents)) := by
  have hstage : Course (Writing fs p s k [])
      (stage p.stagedPath (k : FileCalls.Handle (StateM World)) contents mode)
      (Stage fs p s j (.file mode contents))
      (fun _ x => ∃ i, Staged fs x p s i k (.file mode contents))
      (Halted fs p s j k (.file mode contents)) :=
    (course_stage fs p s j k mode contents).weaken (fun _ h => h) (fun _ _ h => h)
      fun _ h => h.halted
  refine (course_discarding (hstage.bind fun _ => course_swap hs) ?_ ?_).bind fun _ =>
    course_change _ ?_ ?_ ?_
  · rintro x x' (⟨hx, h⟩ | ⟨hy, hlost⟩) hu
    · cases (hx.unlink_staged hs).symm.trans hu
      exact ⟨.withdrawn hx, .withdrawn hx h⟩
    · exact absurd hu ((hs.lost_staged hlost).unlink hs.names_ne_nil.1)
  · rintro x e (⟨hx, h⟩ | ⟨hy, hlost⟩) hu
    · cases (hx.unlink_staged hs).symm.trans hu
    · exact ⟨.setAside hy, .lost hy hlost⟩
  · rintro z ⟨i, hz⟩
    exact .exchanged hz
  · rintro z f ⟨i, hz⟩ hu
    cases (hz.unlink_backup hs).symm.trans hu
    exact ⟨.finished hz, .replaced hz⟩
  · rintro z e ⟨i, hz⟩ hu
    cases (hz.unlink_backup hs).symm.trans hu

/-- **Whatever stands at its siblings, a replacement goes through the stages** and is finished or
has stopped; at once, if no new file can be opened. -/
theorem replaceFile_course (hs : fs.Site p s j) (hmode : fs.status p = .ok mode)
    (contents : Bytes) :
    Course (· = fs) (replaceFile p contents) (Stage fs p s j (.file mode contents))
      (fun _ f => ∃ k x, fs.create p.stagedPath = .ok (k, x) ∧
        Finished fs p s j k (.file mode contents) f)
      (fun f => (∀ r, fs.create p.stagedPath ≠ .ok r) ∧ f = fs ∨
        ∃ k x, fs.create p.stagedPath = .ok (k, x) ∧
          Stopped fs p s j k (.file mode contents) f) := by
  refine Course.bind (Q := fun m x => m = mode ∧ x = fs) (course_look _ ?_ ?_ ?_) fun m =>
    course_of_each ?_
  · rintro x rfl
    exact .untouched
  · rintro x m rfl hm
    exact ⟨Except.ok.inj (hm.symm.trans hmode), rfl⟩
  · rintro x e rfl he
    cases he.symm.trans hmode
  rintro x ⟨rfl, rfl⟩
  refine Course.bind (Q := fun k y => x.create p.stagedPath = .ok (k, y)) (course_opened _ ?_ ?_ ?_)
    fun k => course_of_each fun y hc => ?_
  · rintro y rfl
    exact .untouched
  · rintro y k z rfl hc
    obtain ⟨i, hz, -⟩ := opened_of_create hs.staged (plain_staged s) hc
    exact ⟨.opened hz, hc⟩
  · rintro y e rfl hc
    exact .inl ⟨fun r hr => (by cases hc.symm.trans hr), rfl⟩
  · refine (course_of_writing hs m contents).weaken ?_ (fun _ f hf => ⟨k, y, hc, hf⟩)
      fun f hf => .inr ⟨k, y, hc, hf⟩
    rintro _ rfl
    exact opened_of_create hs.staged (plain_staged s) hc

end Replacement
end StubInsertion
