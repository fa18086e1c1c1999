import StubInsertion.Proofs.Courses
import StubInsertion.Proofs.Files.Calls
import StubInsertion.Proofs.Replacement

/-! # The stages of a replacement

A replacement goes through the same few stages, whatever stands at the siblings of the path.

* **Sites.** `Site fs p s j` says what is known of the path: its last name is the slot `s`, where the
  node `j` stands, and no directory is reached through it.
* **Stages.** `Staged`, `SetAside` and `Exchanged` say what has been done when the new file is
  complete, when the old one is out of the way and when the new one has its name.  A node that still
  has a name is the one it was, up to the node that was written (`Carries`).
* **Ends.** `Stage` lists the files after each call, `Finished` and `Stopped` those in the end. -/

namespace StubInsertion
namespace FileSystem

variable {fs x y z : FileSystem} {p q : Path} {s t : Slot} {i j k n : NodeId} {mode : Mode}
  {contents : Bytes} {new : Node}

/-! ### Sites -/

/-- The last name of the path is the slot `s`, the node `j` stands there, and no directory is reached
through it. -/
structure Site (fs : FileSystem) (p : Path) (s : Slot) (j : NodeId) : Prop where
  admitted : p.admit = .ok ()
  located : fs.Locates p s
  name : Proper s.name
  holds : fs.holds s = some j
  dead : fs.DeadEnd s

theorem exists_site (h : fs.resolve p = .ok i) (hi : fs.isDirectory i = false) :
    ∃ s j, fs.Site p s j := by
  obtain ⟨ha, s, hl, hplain⟩ := exists_locates h hi
  have hn := hl.plain_of_resolve h hi
  obtain ⟨hlen, hdead, j, hj, -⟩ := hplain hn
  exact ⟨s, j, ha, hl, ⟨hn.ne_dot, hn.ne_dotDot, hlen⟩, hj, hdead⟩

namespace Site

theorem staged (hs : fs.Site p s j) : fs.Locates p.stagedPath s.staged :=
  hs.located.staged hs.admitted

theorem backup (hs : fs.Site p s j) : fs.Locates p.backupPath s.backup :=
  hs.located.backup hs.admitted

theorem names_ne_nil (hs : fs.Site p s j) : p.stagedPath.names ≠ [] ∧ p.backupPath.names ≠ [] :=
  ⟨hs.staged.names_ne_nil, hs.backup.names_ne_nil⟩

theorem lost_staged (hs : fs.Site p s j) (h : y.Lost p) : y.Lost p.stagedPath :=
  h.sibling hs.located (Path.admit_eq_ok_iff.mp hs.admitted).2.1 (by decide)

theorem lost_backup (hs : fs.Site p s j) (h : y.Lost p) : y.Lost p.backupPath :=
  h.sibling hs.located (Path.admit_eq_ok_iff.mp hs.admitted).2.1 (by decide)

end Site

/-! ### The new file -/

/-- Nodes with a name are those of the first file system, except for the node `k`. -/
def Carries (fs y : FileSystem) (k : NodeId) (new : Node) : Prop :=
  ∀ t n, y.holds t = some n → y.node? n = if n = k then some new else fs.node? n

theorem Carries.relinked (h : Carries fs y k new) (hr : Relinked y z)
    (hheld : ∀ t n, z.holds t = some n → ∃ t', y.holds t' = some n) : Carries fs z k new := by
  intro t n hn
  obtain ⟨t', hn'⟩ := hheld t n hn
  rw [hr.node t n hn]
  exact h t' n hn'

theorem Carries.moved (h : Carries fs y k new) (hm : Moved y z s t j) (hs : y.holds s = some j) :
    Carries fs z k new := by
  refine h.relinked hm.toRelinked fun v n hn => ?_
  obtain ⟨-, rfl⟩ | hold := hm.held hs hn
  · exact ⟨s, hs⟩
  · exact ⟨v, hold⟩

/-- The new file is complete. -/
structure Staged (fs x : FileSystem) (p : Path) (s : Slot) (i k : NodeId) (new : Node) : Prop
    extends Opened fs x p.stagedPath s.staged i k where
  written : x.node? k = some new

theorem Staged.carries (hx : Staged fs x p s i k new) : Carries fs x k new := by
  intro t n _
  split
  · rename_i hn
    rw [hn, hx.written]
  · rename_i hn
    exact hx.node n hn

namespace Opened

variable (hx : Opened fs x p.stagedPath s.staged i k)
include hx

/-- A device stays as it is. -/
theorem device {m : Mode} {kind : Device} (h : fs.node? k = some (.device m kind)) :
    x.node? k = some (.device m kind) := by
  obtain ⟨m', kind', hbefore, hafter⟩ | ⟨hnone | ⟨m', data, hfile⟩, -⟩ := hx.opened
  · rw [hafter, ← hbefore, h]
  · rw [hnone] at h
    cases h
  · rw [hfile] at h
    cases h

variable (hs : fs.Site p s j)
include hs

theorem inert_staged : fs.Inert s.dir (x.node? i) := hx.inert_entry hs.staged (plain_staged s)

theorem inert_old : fs.Inert s.dir (x.node? j) := hx.inert_of_deadEnd hs.dead hs.holds

/-- The new file is written under its own name if no link leads elsewhere. -/
theorem eq_of_noLink (h : fs.NoLink p.stagedPath) : i = k := by
  rcases hx.link with hik | ⟨hi, target, ht⟩
  · exact hik
  · have ho := (hs.staged.occupant? hx.admitted (plain_staged s)).trans hi
    exact absurd ht (h i target ho)

theorem not_directory_staged (hn : x.holds s.staged = some n) : x.isDirectory n = false := by
  cases hx.entry.symm.trans hn
  exact (hx.inert_staged hs).1

theorem relinked_vacate : Relinked x (x.vacate s.staged) :=
  FileSystem.relinked_vacate fun _ => hx.not_directory_staged hs

theorem sameWays_vacate : SameWays fs (x.vacate s.staged) :=
  hx.grown.sameWays.vacate (hx.deadEnd hs.staged (plain_staged s)) fun _ =>
    hx.not_directory_staged hs

theorem unlink_staged : x.unlink p.stagedPath = .ok (x.vacate s.staged) :=
  unlink_eq_ok (hs.staged.frame hx.grown.sameWays) hx.admitted
    (hx.proper hs.staged (plain_staged s)) hx.entry (hx.inert_staged hs).1

/-- What the renaming of the old file has done. -/
theorem moved (h : x.rename p p.backupPath = .ok y) :
    Moved x y s s.backup j ∧ p.backupPath.admit = .ok () ∧ Proper s.backup.name :=
  moved_of_rename (hs.located.frame hx.grown.sameWays) (hs.backup.frame hx.grown.sameWays)
    hs.name.plain (plain_backup s) (hx.kept s j hs.holds) (hx.inert_old hs).1 (backup_ne s).symm h

end Opened

/-! ### The old file out of the way -/

/-- The new file is complete, and the old one has its second name. -/
structure SetAside (fs y : FileSystem) (p : Path) (s : Slot) (j i k : NodeId) (new : Node) :
    Prop where
  moved : ∃ x, Staged fs x p s i k new ∧ Moved x y s s.backup j
  admitted : p.backupPath.admit = .ok ()
  name : Proper s.backup.name

namespace SetAside

variable (hy : SetAside fs y p s j i k new)
include hy

theorem staged : ∃ x, Staged fs x p s i k new := by
  obtain ⟨x, hx, -⟩ := hy.moved
  exact ⟨x, hx⟩

theorem holds_backup : y.holds s.backup = some j := by
  obtain ⟨x, -, hm⟩ := hy.moved
  exact hm.target

theorem holds_staged : y.holds s.staged = some i := by
  obtain ⟨x, hx, hm⟩ := hy.moved
  rw [hm.others _ (staged_ne s) (staged_ne_backup s)]
  exact hx.entry

theorem holds_slot : y.holds s = none ∨ y.holds s = some j := by
  obtain ⟨x, -, hm⟩ := hy.moved
  exact hm.source.imp_right And.left

/-- The old file has not taken the place of a directory. -/
theorem free (h : fs.holds s.backup = some n) : fs.isDirectory n = false := by
  obtain ⟨x, hx, hm⟩ := hy.moved
  rw [← hx.grown.isDirectory n]
  exact hm.free n (hx.kept _ n h)

variable (hs : fs.Site p s j)
include hs

theorem carries : Carries fs y k new := by
  obtain ⟨x, hx, hm⟩ := hy.moved
  exact hx.carries.moved hm (hx.kept s j hs.holds)

theorem inert_old : fs.Inert s.dir (y.node? j) := by
  obtain ⟨x, hx, hm⟩ := hy.moved
  rw [hm.node _ _ hm.target]
  exact hx.inert_old hs

theorem inert_staged : fs.Inert s.dir (y.node? i) := by
  obtain ⟨x, hx, hm⟩ := hy.moved
  rw [hm.node _ _ hy.holds_staged]
  exact hx.inert_staged hs

theorem noNewWays : NoNewWays fs y := by
  obtain ⟨x, hx, hm⟩ := hy.moved
  exact hx.noNewWays.moved hm (hx.inert_old hs) (hx.kept s j hs.holds)

/-- The path is found as before, or it is lost. -/
theorem or_lost : y.Locates p s ∨ y.Lost p := hs.located.or_lost (hy.noNewWays hs)

theorem deadEnd : y.DeadEnd s := by
  refine (hy.noNewWays hs).deadEnd fun n hn => ?_
  rcases hy.holds_slot with hnone | hj
  · rw [hnone] at hn
    cases hn
  · cases hj.symm.trans hn
    exact hy.inert_old hs

theorem deadEnd_staged : y.DeadEnd s.staged := by
  refine (hy.noNewWays hs).deadEnd fun n hn => ?_
  cases hy.holds_staged.symm.trans hn
  exact hy.inert_staged hs

/-- Unless the path is lost, the new file gets its name. -/
theorem rename_staged (hl : y.Locates p s) : ∃ z, y.rename p.stagedPath p = .ok z := by
  obtain ⟨x, hx, -⟩ := hy.moved
  refine rename_ok (hl.staged hs.admitted) hx.admitted (hx.proper hs.staged (plain_staged s))
    hy.holds_staged (hy.inert_staged hs).1 hl hs.admitted hs.name fun n hn => ?_
  exact (hy.deadEnd hs n hn).1

end SetAside

/-! ### The new file in its place -/

/-- The new file has the name of the old one. -/
structure Exchanged (fs z : FileSystem) (p : Path) (s : Slot) (j i k : NodeId) (new : Node) :
    Prop where
  moved : ∃ y, SetAside fs y p s j i k new ∧ y.Locates p s ∧ Moved y z s.staged s i

namespace Exchanged

variable (hz : Exchanged fs z p s j i k new)
include hz

theorem staged : ∃ x, Staged fs x p s i k new := by
  obtain ⟨y, hy, -, -⟩ := hz.moved
  exact hy.staged

theorem holds_slot : z.holds s = some i := by
  obtain ⟨y, -, -, hm⟩ := hz.moved
  exact hm.target

theorem holds_backup : z.holds s.backup = some j := by
  obtain ⟨y, hy, -, hm⟩ := hz.moved
  rw [hm.others _ (staged_ne_backup s).symm (backup_ne s)]
  exact hy.holds_backup

theorem holds_vacate : (z.vacate s.backup).holds s = some i := by
  rw [FileSystem.holds_vacate, if_neg (backup_ne s).symm, hz.holds_slot]

/-- Only one node was under both names before. -/
theorem holds_staged (hij : i ≠ j) : z.holds s.staged = none := by
  obtain ⟨y, hy, -, hm⟩ := hz.moved
  rcases hm.source with hnone | ⟨-, hsame⟩
  · exact hnone
  · rcases hy.holds_slot with hnone | hold
    · rw [hnone] at hsame
      cases hsame
    · exact absurd (Option.some.inj (hsame.symm.trans hold)) hij

variable (hs : fs.Site p s j)
include hs

theorem inert_old : fs.Inert s.dir (z.node? j) := by
  obtain ⟨y, hy, -, hm⟩ := hz.moved
  rw [hm.node _ _ hz.holds_backup]
  exact hy.inert_old hs

theorem deadEnd_backup : z.DeadEnd s.backup := by
  obtain ⟨y, hy, -, hm⟩ := hz.moved
  have hw : NoNewWays fs z := (hy.noNewWays hs).moved hm (hy.inert_staged hs) hy.holds_staged
  refine hw.deadEnd fun n hn => ?_
  cases hz.holds_backup.symm.trans hn
  exact hz.inert_old hs

theorem located : z.Locates p s := by
  obtain ⟨y, hy, hl, hm⟩ := hz.moved
  exact hl.frame ((sameWays_refl y).moved hm (hy.deadEnd_staged hs) (hy.deadEnd hs))

/-- The old file is removed under its second name. -/
theorem unlink_backup : z.unlink p.backupPath = .ok (z.vacate s.backup) := by
  obtain ⟨y, hy, -, -⟩ := hz.moved
  exact unlink_eq_ok ((hz.located hs).backup hs.admitted) hy.admitted hy.name hz.holds_backup
    (hz.deadEnd_backup hs _ hz.holds_backup).1

theorem not_directory_backup (h : z.holds s.backup = some n) : z.isDirectory n = false :=
  (hz.deadEnd_backup hs n h).1

theorem located_vacate : (z.vacate s.backup).Locates p s :=
  (hz.located hs).frame <| (sameWays_refl z).vacate (hz.deadEnd_backup hs) fun _ =>
    hz.not_directory_backup hs

theorem isDirectory_vacate : (z.vacate s.backup).isDirectory n = fs.isDirectory n := by
  obtain ⟨y, ⟨⟨x, hx, hm⟩, -, -⟩, -, hm'⟩ := hz.moved
  rw [(relinked_vacate fun _ => hz.not_directory_backup hs).isDirectory, hm'.isDirectory,
    hm.isDirectory, hx.grown.isDirectory]

theorem carries : Carries fs z k new := by
  obtain ⟨y, hy, -, hm⟩ := hz.moved
  exact (hy.carries hs).moved hm hy.holds_staged

theorem carries_vacate : Carries fs (z.vacate s.backup) k new := by
  refine (hz.carries hs).relinked (relinked_vacate fun _ => hz.not_directory_backup hs)
    fun t n hn => ⟨t, holds_of_vacate hn⟩

end Exchanged

/-! ### All stages -/

/-- The files that a replacement leaves after its calls. -/
inductive Stage (fs : FileSystem) (p : Path) (s : Slot) (j : NodeId) (new : Node) :
    FileSystem → Prop
  | untouched : Stage fs p s j new fs
  | opened {x : FileSystem} {i k : NodeId} (hx : Opened fs x p.stagedPath s.staged i k) :
      Stage fs p s j new x
  | withdrawn {x : FileSystem} {i k : NodeId} (hx : Opened fs x p.stagedPath s.staged i k) :
      Stage fs p s j new (x.vacate s.staged)
  | setAside {y : FileSystem} {i k : NodeId} (hy : SetAside fs y p s j i k new) :
      Stage fs p s j new y
  | exchanged {z : FileSystem} {i k : NodeId} (hz : Exchanged fs z p s j i k new) :
      Stage fs p s j new z
  | finished {z : FileSystem} {i k : NodeId} (hz : Exchanged fs z p s j i k new) :
      Stage fs p s j new (z.vacate s.backup)

/-- The files after a replacement; `k` is the node that was opened. -/
inductive Finished (fs : FileSystem) (p : Path) (s : Slot) (j k : NodeId) (new : Node) :
    FileSystem → Prop
  | replaced {z : FileSystem} {i : NodeId} (hz : Exchanged fs z p s j i k new) :
      Finished fs p s j k new (z.vacate s.backup)

/-- The files after a replacement that failed once the node `k` had been opened. -/
inductive Stopped (fs : FileSystem) (p : Path) (s : Slot) (j k : NodeId) (new : Node) :
    FileSystem → Prop
  /-- the node was a device, or the old file could not be renamed -/
  | withdrawn {x : FileSystem} {i : NodeId} (hx : Opened fs x p.stagedPath s.staged i k)
      (h : (∃ mode kind, fs.node? k = some (.device mode kind)) ∨
        ∀ y, x.rename p p.backupPath ≠ .ok y) : Stopped fs p s j k new (x.vacate s.staged)
  /-- the path itself went through its second sibling -/
  | lost {y : FileSystem} {i : NodeId} (hy : SetAside fs y p s j i k new) (h : y.Lost p) :
      Stopped fs p s j k new y

end FileSystem

end StubInsertion
