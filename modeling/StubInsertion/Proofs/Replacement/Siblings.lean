import StubInsertion.Proofs.Batch.Progress
import StubInsertion.Proofs.Replacement.Course

/-! # Siblings that were there before

What stood at the two siblings of a path before a replacement is used up by it.

* **First sibling.** The new contents go where it leads, and then the sibling itself takes the name
  of the path: `replaceFile_read_back` says when the new contents can be read there.
* **Both.** Once a file has been opened for the new contents, nothing is left at the first sibling
  (`gone_staged`), and nothing at the second one unless it is `Spared` (`fate_of_backup`).
* **Files.** `processFile_siblings` says exactly when a sibling survives. -/

namespace StubInsertion
namespace FileSystem

variable {fs f x y z : FileSystem} {p q : Path} {s t : Slot} {i j k n : NodeId} {mode : Mode}
  {contents : Bytes} {new : Node}

/-! ### The first sibling -/

namespace Opened

variable (hx : Opened fs x p.stagedPath s.staged i k) (hs : fs.Site p s j)
include hx hs

/-- What stood at the first sibling stands there still. -/
theorem eq_of_occupant (h : fs.occupant? p.stagedPath = some n) : i = n := by
  have hn := ((hs.staged.occupant?_eq_some_iff (plain_staged s)).mp h).2
  exact Option.some.inj (hx.entry.symm.trans (hx.kept _ n hn))

end Opened

/-- The new contents are read wherever a path leads to the node that was opened. -/
theorem Exchanged.contents_of_resolve (hz : Exchanged fs z p s j i k (.file mode contents))
    (hs : fs.Site p s j) (h : (z.vacate s.backup).resolve q = .ok k) :
    (z.vacate s.backup).contents q = .ok contents := by
  obtain ⟨x, hx⟩ := hz.staged
  have hdir : (z.vacate s.backup).isDirectory k = false := by
    rw [hz.isDirectory_vacate hs]
    exact hx.leaf_before.not_directory
  obtain ⟨t, ht⟩ := exists_holds_of_resolve h hdir
  have hnode := hz.carries_vacate hs t k ht
  rw [if_pos rfl] at hnode
  exact contents_eq_ok_iff.mpr ⟨k, h, .inl ⟨mode, hnode⟩⟩

theorem Exchanged.occupant_vacate (hz : Exchanged fs z p s j i k new) (hs : fs.Site p s j) :
    (z.vacate s.backup).occupant? p = some i := by
  rw [(hz.located_vacate hs).occupant? hs.admitted hs.name.plain, hz.holds_vacate]

/-! ### Both siblings -/

/-- A call that acts on names finds the node under the path. -/
def Present (fs : FileSystem) (q : Path) (n : NodeId) : Prop :=
  ∃ t slash, fs.entry q = .ok (.slot t slash) ∧ fs.occupant t = .ok n

/-- The same node is under the path, and it has not changed. -/
structure Survives (fs f : FileSystem) (q : Path) (n : NodeId) : Prop where
  occupant : f.occupant? q = some n
  node : f.node? n = fs.node? n

/-- The old file cannot take the place of a directory, and it is left alone if the new contents go
to a device. -/
def Spared (fs : FileSystem) (k n : NodeId) : Prop :=
  fs.isDirectory n = true ∨ ∃ mode kind, fs.node? k = some (.device mode kind)

theorem Present.holds (h : fs.Present q n) (hl : fs.Locates q t) (hn : Plain t.name) :
    q.admit = .ok () ∧ Proper t.name ∧ fs.holds t = some n := by
  obtain ⟨t', slash, he, ho⟩ := h
  obtain ⟨ha, -, -, -⟩ := way_of_entry he
  cases (hl.entry_plain ha hn).symm.trans he
  obtain ⟨hlen, hholds⟩ := occupant_eq_ok_iff.mp ho
  exact ⟨ha, ⟨hn.ne_dot, hn.ne_dotDot, hlen⟩, hholds⟩

theorem Lost.occupant? (h : fs.Lost p) (hp : p.names ≠ []) : fs.occupant? p = none := by
  obtain ⟨e, he⟩ := h.entry hp
  rw [FileSystem.occupant?, he]

/-- Only what is no directory gives way to the old file, and only to make room for a file. -/
theorem SetAside.not_spared (hy : SetAside fs y p s j i k (.file mode contents))
    (h : fs.holds s.backup = some n) : ¬ fs.Spared k n := by
  rintro (hdir | ⟨m, kind, hdev⟩)
  · rw [hy.free h] at hdir
    cases hdir
  · obtain ⟨x, hx, -⟩ := hy.moved
    cases hx.written.symm.trans (hx.device hdev)

namespace Opened

variable (hx : Opened fs x p.stagedPath s.staged i k) (hs : fs.Site p s j)
include hx hs

/-- A file at the second sibling does not keep the old file from being renamed. -/
theorem rename_ok (hn : fs.Present p.backupPath n) (hdir : fs.isDirectory n = false) :
    ∃ y, x.rename p p.backupPath = .ok y := by
  obtain ⟨ha, hname, hholds⟩ := hn.holds hs.backup (plain_backup s)
  have hw := hx.grown.sameWays
  refine FileSystem.rename_ok (hs.located.frame hw) hs.admitted hs.name (hx.kept s j hs.holds)
    (hx.inert_old hs).1 (hs.backup.frame hw) ha hname fun n' hn' => ?_
  cases (hx.kept _ n hholds).symm.trans hn'
  rw [hx.grown.isDirectory, hdir]

/-- What is spared is as it was. -/
theorem survives (hn : fs.Present p.backupPath n) (hsp : fs.Spared k n) :
    fs.Survives (x.vacate s.staged) p.backupPath n := by
  obtain ⟨ha, -, hholds⟩ := hn.holds hs.backup (plain_backup s)
  have hholds' : (x.vacate s.staged).holds s.backup = some n := by
    rw [holds_vacate, if_neg (staged_ne_backup s).symm, hx.kept _ n hholds]
  constructor
  · rw [(hs.backup.frame (hx.sameWays_vacate hs)).occupant? ha (plain_backup s), hholds']
  · rw [(hx.relinked_vacate hs).node _ n hholds']
    by_cases hnk : n = k
    · subst hnk
      rcases hsp with hdir | ⟨m, kind, hdev⟩
      · rw [hx.leaf_before.not_directory] at hdir
        cases hdir
      · rw [hx.device hdev, hdev]
    · exact hx.node n hnk

end Opened

/-- The first sibling has become the path itself. -/
theorem Finished.gone_staged (h : Finished fs p s j k new f) (hs : fs.Site p s j)
    (hn : fs.Present p.stagedPath n) (hnj : n ≠ j) : f.occupant? p.stagedPath = none := by
  obtain ⟨hz⟩ := h
  obtain ⟨ha, -, hholds⟩ := hn.holds hs.staged (plain_staged s)
  obtain ⟨x, hx⟩ := hz.staged
  have hin := hx.eq_of_occupant hs ((hs.staged.occupant? ha (plain_staged s)).trans hholds)
  refine ((hz.located_vacate hs).staged hs.admitted).occupant?_eq_none (plain_staged s) ?_
  rw [holds_vacate, if_neg (staged_ne_backup s)]
  exact hz.holds_staged (hin ▸ hnj)

/-- The first sibling has been removed, or is lost with the path. -/
theorem Stopped.gone_staged (h : Stopped fs p s j k new f) (hs : fs.Site p s j) :
    f.occupant? p.stagedPath = none := by
  cases h with
  | withdrawn hx _ =>
      refine (hs.staged.frame (hx.sameWays_vacate hs)).occupant?_eq_none (plain_staged s) ?_
      rw [holds_vacate, if_pos rfl]
  | lost _ hlost => exact (hs.lost_staged hlost).occupant? hs.names_ne_nil.1

/-- The old file has taken the place of the second sibling and has been removed there. -/
theorem Finished.backup (h : Finished fs p s j k (.file mode contents) f) (hs : fs.Site p s j)
    (hn : fs.Present p.backupPath n) : ¬ fs.Spared k n ∧ f.occupant? p.backupPath = none := by
  obtain ⟨hz⟩ := h
  obtain ⟨y, hy, -⟩ := hz.moved
  refine ⟨hy.not_spared (hn.holds hs.backup (plain_backup s)).2.2, ?_⟩
  refine ((hz.located_vacate hs).backup hs.admitted).occupant?_eq_none (plain_backup s) ?_
  rw [holds_vacate, if_pos rfl]

/-- The second sibling is there still, or the old file has taken its place and is lost. -/
theorem Stopped.backup (h : Stopped fs p s j k (.file mode contents) f) (hs : fs.Site p s j)
    (hn : fs.Present p.backupPath n) :
    fs.Spared k n ∧ fs.Survives f p.backupPath n ∨
      ¬ fs.Spared k n ∧ f.occupant? p.backupPath = none := by
  cases h with
  | withdrawn hx hstop =>
      have hsp : fs.Spared k n := by
        rcases hstop with hdev | hrefused
        · exact .inr hdev
        · cases hdir : fs.isDirectory n with
          | true => exact .inl hdir
          | false =>
              obtain ⟨y, hy⟩ := hx.rename_ok hs hn hdir
              exact absurd hy (hrefused y)
      exact .inl ⟨hsp, hx.survives hs hn hsp⟩
  | lost hy hlost =>
      exact .inr ⟨hy.not_spared (hn.holds hs.backup (plain_backup s)).2.2,
        (hs.lost_backup hlost).occupant? hs.names_ne_nil.2⟩

/-- Once a file has been opened for the new contents, the first sibling is used up. -/
theorem gone_staged (hs : fs.Site p s j)
    (h : Finished fs p s j k new f ∨ Stopped fs p s j k new f) (hn : fs.Present p.stagedPath n)
    (hnj : n ≠ j) : f.occupant? p.stagedPath = none := by
  rcases h with h | h
  · exact h.gone_staged hs hn hnj
  · exact h.gone_staged hs

/-- The second sibling is used up as well, unless it is spared. -/
theorem fate_of_backup (hs : fs.Site p s j)
    (h : Finished fs p s j k (.file mode contents) f ∨ Stopped fs p s j k (.file mode contents) f)
    (hn : fs.Present p.backupPath n) :
    fs.Spared k n ∧ fs.Survives f p.backupPath n ∨
      ¬ fs.Spared k n ∧ f.occupant? p.backupPath = none := by
  rcases h with h | h
  · exact .inr (h.backup hs hn)
  · exact h.backup hs hn

end FileSystem

namespace Replacement

open FileSystem

variable {fs : FileSystem} {p : Path} {i j : NodeId} {mode : Mode} {data : Bytes}

/-- In the end nothing has happened, or a file has been opened and the replacement is finished or
has stopped. -/
theorem files_after {s : Slot} (hs : fs.Site p s j) (hm : fs.status p = .ok mode)
    (contents : Bytes) (w : World) (hw : w.files = fs) :
    ∃ f, (runIn w (replaceFile p contents)).2.files = f ∧
      ((∀ r, fs.create p.stagedPath ≠ .ok r) ∧ f = fs ∨
        ∃ k x, fs.create p.stagedPath = .ok (k, x) ∧
          (Finished fs p s j k (.file mode contents) f ∨
            Stopped fs p s j k (.file mode contents) f)) := by
  obtain ⟨result, w', hrun, -, hend⟩ := replaceFile_course hs hm contents w hw
  refine ⟨w'.files, by rw [hrun], ?_⟩
  cases result with
  | ok u =>
      obtain ⟨k, x, hk, hfin⟩ := hend
      exact .inr ⟨k, x, hk, .inl hfin⟩
  | error e =>
      obtain hnone | ⟨k, x, hk, hstop⟩ := hend
      · exact .inl hnone
      · exact .inr ⟨k, x, hk, .inr hstop⟩

/-! ### Reading back -/

/-- **What a replacement has written can be read wherever a path leads to the file that was opened.**
The path itself leads there if no symbolic link stood at its first sibling; if one did, it is now
what stands at the path. -/
theorem replaceFile_read_back (w w' : World) (p : Path) (contents : Bytes)
    (hp : w.files.resolve p = .ok i) (hi : w.files.node? i = some (.file mode data))
    (hrun : runIn w (replaceFile p contents) = (.ok (), w')) :
    ∃ k x, w.files.create p.stagedPath = .ok (k, x) ∧
      (∀ q, w'.files.resolve q = .ok k → w'.files.contents q = .ok contents) ∧
      (w.files.NoLink p.stagedPath → w'.files.contents p = .ok contents) ∧
      ∀ n target, w.files.occupant? p.stagedPath = some n →
        w.files.node? n = some (.symlink target) →
        w'.files.occupant? p = some n ∧ w'.files.node? n = some (.symlink target) := by
  obtain ⟨s, j, hs⟩ := exists_site hp (IsFile.not_isDirectory ⟨mode, data, hi⟩)
  have hm : w.files.status p = .ok mode := status_of_resolve hp hi
  obtain ⟨result, w'', hrun', -, hend⟩ := replaceFile_course hs hm contents w rfl
  cases hrun.symm.trans hrun'
  obtain ⟨k, x, hc, hfin⟩ := hend
  refine ⟨k, x, hc, ?_⟩
  generalize w'.files = f at hfin
  obtain @⟨z, i', hz⟩ := hfin
  obtain ⟨y, hy⟩ := hz.staged
  have hnode := hz.carries_vacate hs s i' hz.holds_vacate
  refine ⟨fun q hq => hz.contents_of_resolve hs hq, fun hno => ?_, fun n target hn ht => ?_⟩
  · obtain rfl := hy.eq_of_noLink hs hno
    rw [if_pos rfl] at hnode
    refine hz.contents_of_resolve hs ?_
    exact (hz.located_vacate hs).resolve hs.admitted hs.name hz.holds_vacate (by simp [hnode])
  · obtain rfl := hy.eq_of_occupant hs hn
    have hik : i' ≠ k := by
      rintro rfl
      exact hy.leaf_before.not_link target ht
    rw [if_neg hik, ht] at hnode
    exact ⟨hz.occupant_vacate hs, hnode⟩

/-- A file, another one, and at the first sibling of the file a link to the other one. -/
def diverted : FileSystem :=
  ((FileSystem.initial.add ⟨4, utf8 "a"⟩ (.file 0o600 (utf8 "x\n"))).add ⟨4, utf8 "b"⟩
    (.file 0o644 (utf8 "z\n"))).add ⟨4, utf8 "a~"⟩ (.symlink (.ofString "b"))

/-- The new contents are in the other file, and the path is a link to it. -/
theorem replaceFile_read_back_diverted :
    diverted.resolve (.ofString "a") = .ok 5 ∧
      diverted.node? 5 = some (.file 0o600 (utf8 "x\n")) ∧
      ∃ w', runIn (World.of diverted .unlimited) (replaceFile (.ofString "a") (utf8 "y\n")) =
          (.ok (), w') ∧
        w'.files.contents (.ofString "b") = .ok (utf8 "y\n") ∧
        w'.files.occupant? (.ofString "a") = some 7 ∧
        w'.files.node? 7 = some (.symlink (.ofString "b")) := by
  have hp : diverted.resolve (.ofString "a") = .ok 5 := rfl
  have hi : diverted.node? 5 = some (.file 0o600 (utf8 "x\n")) := by decide +kernel
  have hrun : runIn (World.of diverted .unlimited) (replaceFile (.ofString "a") (utf8 "y\n")) =
      (.ok (), (runIn (World.of diverted .unlimited)
        (replaceFile (.ofString "a") (utf8 "y\n"))).2) := rfl
  obtain ⟨k, x, hc, hread, -, hlink⟩ := replaceFile_read_back _ _ _ _ hp hi hrun
  obtain ⟨hname, hnode⟩ := hlink 7 (.ofString "b") (by decide +kernel) (by decide +kernel)
  have hk : diverted.create (Path.ofString "a").stagedPath =
      .ok (6, diverted.setNode 6 (.file 0o644 [])) := rfl
  cases hk.symm.trans hc
  exact ⟨hp, hi, _, hrun, hread (.ofString "b") rfl, hname, hnode⟩

/-- A file, and at its first sibling a link to it. -/
def circular : FileSystem :=
  (FileSystem.initial.add ⟨4, utf8 "a"⟩ (.file 0o600 (utf8 "x\n"))).add ⟨4, utf8 "a~"⟩
    (.symlink (.ofString "a"))

/-- A replacement that succeeds may leave nothing to read: the path is a link to itself. -/
theorem nothing_read_back :
    circular.resolve (.ofString "a") = .ok 5 ∧
      circular.node? 5 = some (.file 0o600 (utf8 "x\n")) ∧
      (runIn (World.of circular .unlimited) (replaceFile (.ofString "a") (utf8 "y\n"))).1 =
        .ok () ∧
      (runIn (World.of circular .unlimited)
        (replaceFile (.ofString "a") (utf8 "y\n"))).2.files.contents (.ofString "a") =
          .error (.refused .tooManyLinks) := by
  refine ⟨?_, ?_, ?_, ?_⟩ <;> decide +kernel

end Replacement

namespace Batch

open FileSystem

variable {block : Block} {p : Path} {i j k n : NodeId} {mode : Mode} {data contents : Bytes}
  {line : Nat} {w : World}

/-! ### Files -/

/-- A file that is not marked is replaced, and nothing else happens to the files. -/
theorem processFile_files (hc : w.files.contents p = .ok data)
    (hplan : Source.plan data block = .insert line contents) :
    (runIn w (processFile block p)).2.files =
      (runIn (w.after w.files) (Replacement.replaceFile p contents)).2.files := by
  unfold processFile
  rw [runIn_bind_ok (runIn_read hc), hplan]
  dsimp only
  cases hrun : runIn (w.after w.files) (Replacement.replaceFile p contents) with
  | mk result w' =>
      cases result with
      | error e => rw [runIn_bind_error hrun]
      | ok u =>
          rw [runIn_bind_ok hrun]
          rfl

/-- **What becomes of files at the siblings.** Nothing, if the file is marked or no new file can be
opened.  Otherwise the first sibling is used up, and the second one unless it is spared. -/
theorem processFile_siblings (w : World) (block : Block) (p : Path)
    (hp : w.files.resolve p = .ok i) (hi : w.files.node? i = some (.file mode data))
    (hj : w.files.occupant? p = some j) :
    ((Source.plan data block = .alreadyMarked ∨ ∀ r, w.files.create p.stagedPath ≠ .ok r) →
      (runIn w (processFile block p)).2.files = w.files) ∧
    ∀ k x, Source.plan data block ≠ .alreadyMarked → w.files.create p.stagedPath = .ok (k, x) →
      (∀ n, w.files.Present p.stagedPath n → n ≠ j →
        (runIn w (processFile block p)).2.files.occupant? p.stagedPath = none) ∧
      ∀ n, w.files.Present p.backupPath n →
        w.files.Spared k n ∧
            w.files.Survives (runIn w (processFile block p)).2.files p.backupPath n ∨
          ¬ w.files.Spared k n ∧
            (runIn w (processFile block p)).2.files.occupant? p.backupPath = none := by
  have hc : w.files.contents p = .ok data := contents_eq_ok_iff.mpr ⟨i, hp, .inl ⟨mode, hi⟩⟩
  have hm : w.files.status p = .ok mode := status_of_resolve hp hi
  obtain ⟨s, j', hs⟩ := exists_site hp (IsFile.not_isDirectory ⟨mode, data, hi⟩)
  obtain rfl : j' = j := by
    rw [hs.located.occupant? hs.admitted hs.name.plain, hs.holds] at hj
    exact Option.some.inj hj
  cases hplan : Source.plan data block with
  | alreadyMarked =>
      obtain ⟨w', hrun, hw'⟩ := processFile_marked hc hplan
      rw [hrun]
      exact ⟨fun _ => hw'.files, fun _ _ h => absurd rfl h⟩
  | insert line contents =>
      rw [processFile_files hc hplan]
      obtain ⟨w', hw', hend⟩ := Replacement.files_after hs hm contents (w.after w.files) rfl
      rw [hw']
      obtain ⟨hnone, hfiles⟩ | ⟨k, x, hk, hend⟩ := hend
      · exact ⟨fun _ => hfiles, fun k x _ hk => absurd hk (hnone _)⟩
      · refine ⟨fun h => ?_, fun k' x' _ hk' => ?_⟩
        · rcases h with hmarked | hnone
          · cases hmarked
          · exact absurd hk (hnone _)
        · cases hk.symm.trans hk'
          exact ⟨fun n hn hnj => gone_staged hs hend hn hnj, fun n hn => fate_of_backup hs hend hn⟩

/-- A file that is not marked, another one at its first sibling and a directory at the second. -/
def crowded : FileSystem :=
  ((FileSystem.initial.add ⟨4, utf8 "a"⟩ (.file 0o644 (utf8 "x = 1\n"))).add ⟨4, utf8 "a~"⟩
    (.file 0o600 (utf8 "mine\n"))).add ⟨4, utf8 "a~~"⟩ (.directory 0o755 4)

/-- The other file is gone, the directory is spared. -/
theorem processFile_siblings_crowded :
    crowded.resolve (.ofString "a") = .ok 5 ∧
      crowded.node? 5 = some (.file 0o644 (utf8 "x = 1\n")) ∧
      crowded.occupant? (.ofString "a") = some 5 ∧
      crowded.Present (.ofString "a~") 6 ∧ crowded.Present (.ofString "a~~") 7 ∧
      ∃ f, (runIn (World.of crowded .unlimited)
          (processFile Block.short (.ofString "a"))).2.files = f ∧
        f.occupant? (.ofString "a~") = none ∧ crowded.Survives f (.ofString "a~~") 7 := by
  have hp : crowded.resolve (.ofString "a") = .ok 5 := rfl
  have hi : crowded.node? 5 = some (.file 0o644 (utf8 "x = 1\n")) := by decide +kernel
  have hj : crowded.occupant? (.ofString "a") = some 5 := by decide +kernel
  have hS : crowded.Present (.ofString "a~") 6 := ⟨⟨4, utf8 "a~"⟩, false, rfl, rfl⟩
  have hB : crowded.Present (.ofString "a~~") 7 := ⟨⟨4, utf8 "a~~"⟩, false, rfl, rfl⟩
  have hplan : Source.plan (utf8 "x = 1\n") Block.short ≠ .alreadyMarked := by decide +kernel
  have hc : crowded.create (Path.ofString "a").stagedPath =
      .ok (6, crowded.setNode 6 (.file 0o600 [])) := rfl
  obtain ⟨-, hfates⟩ := processFile_siblings (World.of crowded .unlimited) Block.short
    (.ofString "a") hp hi hj
  obtain ⟨hstaged, hbackup⟩ := hfates _ _ hplan hc
  refine ⟨hp, hi, hj, hS, hB, _, rfl, hstaged 6 hS (by decide), ?_⟩
  obtain ⟨-, hsurvives⟩ | ⟨hspared, -⟩ := hbackup 7 hB
  · exact hsurvives
  · exact absurd (.inl (by decide +kernel)) hspared

/-- Other files at both siblings. -/
def surrounded : FileSystem :=
  ((FileSystem.initial.add ⟨4, utf8 "a"⟩ (.file 0o644 (utf8 "x = 1\n"))).add ⟨4, utf8 "a~"⟩
    (.file 0o600 (utf8 "mine\n"))).add ⟨4, utf8 "a~~"⟩ (.file 0o600 (utf8 "also mine\n"))

/-- Both are gone once the file has been treated. -/
theorem siblings_used_up :
    surrounded.resolve (.ofString "a") = .ok 5 ∧
      surrounded.node? 5 = some (.file 0o644 (utf8 "x = 1\n")) ∧
      surrounded.occupant? (.ofString "a~") = some 6 ∧
      surrounded.occupant? (.ofString "a~~") = some 7 ∧
      (runIn (World.of surrounded .unlimited) (processFile Block.short (.ofString "a"))).1 =
        .ok (.inserted 1) ∧
      (runIn (World.of surrounded .unlimited)
        (processFile Block.short (.ofString "a"))).2.files.occupant? (.ofString "a~") = none ∧
      (runIn (World.of surrounded .unlimited)
        (processFile Block.short (.ofString "a"))).2.files.occupant? (.ofString "a~~") = none := by
  refine ⟨?_, ?_, ?_, ?_, ?_, ?_, ?_⟩ <;> decide +kernel

end Batch
end StubInsertion
