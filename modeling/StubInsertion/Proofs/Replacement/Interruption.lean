import StubInsertion.Proofs.Replacement.Course

/-! # Interrupted replacements

A replacement that is cut short after any of its calls leaves the old file or the new one.

* **Slots.** `Recoverable` says what is left under two names; it holds of the two slots at each
  stage (`Stage.recoverable`).
* **Paths.** A path means its slot at each stage unless it goes through its own second sibling
  (`Stage.located`): once a link there has given way to the old file, the path leads nowhere.
* **Runs.** `replaceFile_crash_safe` puts both together. -/

namespace StubInsertion
namespace FileSystem

variable {fs x y z : FileSystem} {p : Path} {s : Slot} {i j k n : NodeId} {mode : Mode}
  {old new : Node}

/-! ### Slots -/

/-- Of two names, one stands for nothing or for one of two nodes as a whole, and a node is left: the
old one under either name or the new one under the first. -/
structure Recoverable (fs : FileSystem) (name second : Option NodeId) (old new : Node) : Prop where
  whole : name = none ∨ name.bind fs.node? = some old ∨ name.bind fs.node? = some new
  left : name.bind fs.node? = some old ∨ second.bind fs.node? = some old ∨
    name.bind fs.node? = some new

theorem recoverable_of_old {name second : Option NodeId} (h : name.bind fs.node? = some old) :
    Recoverable fs name second old new := ⟨.inr (.inl h), .inl h⟩

theorem recoverable_of_new {name second : Option NodeId} (h : name.bind fs.node? = some new) :
    Recoverable fs name second old new := ⟨.inr (.inr h), .inr (.inr h)⟩

/-- The first sibling of the path is no symbolic link and no other name of the node `j`. -/
structure Unlinked (fs : FileSystem) (p : Path) (j : NodeId) : Prop where
  symbolic : fs.NoLink p.stagedPath
  hard : fs.occupant? p.stagedPath ≠ some j

/-- The new file is written under its own name then, and is not the old one. -/
theorem Opened.eq_of_unlinked (hx : Opened fs x p.stagedPath s.staged i k) (hs : fs.Site p s j)
    (hj : fs.node? j = some old) (hu : fs.Unlinked p j) : i = k ∧ j ≠ k := by
  have hik := hx.eq_of_noLink hs hu.symbolic
  refine ⟨hik, fun hjk => ?_⟩
  rcases hx.added _ _ hx.entry with hi | ⟨-, -, hnone⟩
  · exact hu.hard (by rw [hs.staged.occupant? hx.admitted (plain_staged s), hi, hik, hjk])
  · rw [← hjk, hj] at hnone
    cases hnone

/-- Before the old file is renamed, it stands where it stood. -/
theorem Opened.holds_old (hx : Opened fs x p.stagedPath s.staged i k) (hs : fs.Site p s j)
    (hj : fs.node? j = some old) (hu : fs.Unlinked p j) : (x.holds s).bind x.node? = some old := by
  rw [hx.kept s j hs.holds, Option.bind_some, hx.node j (hx.eq_of_unlinked hs hj hu).2, hj]

theorem Opened.holds_old_vacate (hx : Opened fs x p.stagedPath s.staged i k) (hs : fs.Site p s j)
    (hj : fs.node? j = some old) (hu : fs.Unlinked p j) :
    ((x.vacate s.staged).holds s).bind (x.vacate s.staged).node? = some old := by
  have hold : (x.vacate s.staged).holds s = some j := by
    rw [holds_vacate, if_neg (staged_ne s).symm, hx.kept s j hs.holds]
  rw [hold, Option.bind_some, (hx.relinked_vacate hs).node s j hold,
    hx.node j (hx.eq_of_unlinked hs hj hu).2, hj]

theorem SetAside.recoverable (hy : SetAside fs y p s j i k new) (hs : fs.Site p s j)
    (hj : fs.node? j = some old) (hu : fs.Unlinked p j) :
    Recoverable y (y.holds s) (y.holds s.backup) old new := by
  obtain ⟨x, hx⟩ := hy.staged
  have hnode : y.node? j = some old := by
    rw [hy.carries hs _ j hy.holds_backup, if_neg (hx.eq_of_unlinked hs hj hu).2, hj]
  refine ⟨?_, .inr (.inl ?_)⟩
  · rcases hy.holds_slot with hnone | hold
    · exact .inl hnone
    · exact .inr (.inl (by rw [hold, Option.bind_some, hnode]))
  · rw [hy.holds_backup, Option.bind_some, hnode]

theorem Exchanged.holds_new (hz : Exchanged fs z p s j i k new) (hs : fs.Site p s j)
    (hj : fs.node? j = some old) (hu : fs.Unlinked p j) :
    (z.holds s).bind z.node? = some new := by
  obtain ⟨x, hx⟩ := hz.staged
  rw [hz.holds_slot, Option.bind_some, hz.carries hs s i hz.holds_slot,
    if_pos (hx.eq_of_unlinked hs hj hu).1]

theorem Exchanged.holds_new_vacate (hz : Exchanged fs z p s j i k new) (hs : fs.Site p s j)
    (hj : fs.node? j = some old) (hu : fs.Unlinked p j) :
    ((z.vacate s.backup).holds s).bind (z.vacate s.backup).node? = some new := by
  obtain ⟨x, hx⟩ := hz.staged
  rw [hz.holds_vacate, Option.bind_some, hz.carries_vacate hs s i hz.holds_vacate,
    if_pos (hx.eq_of_unlinked hs hj hu).1]

/-- While the old file is set aside, its slot may be vacant; else it holds one of the files. -/
theorem Stage.old_or_new (h : Stage fs p s j new x) (hs : fs.Site p s j)
    (hj : fs.node? j = some old) (hu : fs.Unlinked p j) :
    (x.holds s).bind x.node? = some old ∨ (x.holds s).bind x.node? = some new ∨
      ∃ i k, SetAside fs x p s j i k new := by
  cases h with
  | untouched => exact .inl (by rw [hs.holds, Option.bind_some, hj])
  | opened hx => exact .inl (hx.holds_old hs hj hu)
  | withdrawn hx => exact .inl (hx.holds_old_vacate hs hj hu)
  | setAside hy => exact .inr (.inr ⟨_, _, hy⟩)
  | exchanged hz => exact .inr (.inl (hz.holds_new hs hj hu))
  | finished hz => exact .inr (.inl (hz.holds_new_vacate hs hj hu))

/-- **At each stage a file is left** in one of the two slots. -/
theorem Stage.recoverable (h : Stage fs p s j new x) (hs : fs.Site p s j)
    (hj : fs.node? j = some old) (hu : fs.Unlinked p j) :
    Recoverable x (x.holds s) (x.holds s.backup) old new := by
  obtain hold | hnew | ⟨i, k, hy⟩ := h.old_or_new hs hj hu
  · exact recoverable_of_old hold
  · exact recoverable_of_new hnew
  · exact hy.recoverable hs hj hu

/-! ### Paths -/

/-- The path does not go through a link at its second sibling: there is none, or the path is found
without it. -/
def Direct (fs : FileSystem) (p : Path) (s : Slot) : Prop :=
  fs.NoLink p.backupPath ∨ (fs.vacate s.backup).entry p = fs.entry p

theorem SetAside.located_vacate (hy : SetAside fs y p s j i k new) (hs : fs.Site p s j)
    (hd : fs.Direct p s) : (fs.vacate s.backup).Locates p s := by
  rcases hd with hlink | hentry
  · -- a file at the second sibling is on no way
    have hdead : fs.DeadEnd s.backup := by
      intro n hn
      refine ⟨hy.free hn, fun target ht => ?_⟩
      have ho := (hs.backup.occupant? hy.admitted (plain_backup s)).trans hn
      exact absurd ht (hlink n target ho)
    exact hs.located.frame ((sameWays_refl fs).vacate hdead fun _ hn => hy.free hn)
  · rw [hs.located.entry_plain hs.admitted hs.name.plain] at hentry
    exact locates_of_entry hentry

/-- With the old file aside, a path that does not go through its second sibling is found. -/
theorem SetAside.located (hy : SetAside fs y p s j i k new) (hs : fs.Site p s j)
    (hd : fs.Direct p s) : y.Locates p s := by
  refine (hy.located_vacate hs hd).frame ?_
  have hfree (n : NodeId) (hn : fs.holds s.backup = some n) := hy.free hn
  have hvacant : (fs.vacate s.backup).DeadEnd s.backup :=
    deadEnd_of_vacant (by rw [holds_vacate, if_pos rfl])
  obtain ⟨x, hx, hm⟩ := hy.moved
  exact ((sameWays_of_vacate hfree).trans hx.grown.sameWays).moved hm (hs.dead.vacate hfree) hvacant

theorem Stage.located (h : Stage fs p s j new x) (hs : fs.Site p s j) (hd : fs.Direct p s) :
    x.Locates p s := by
  cases h with
  | untouched => exact hs.located
  | opened hx => exact hs.located.frame hx.grown.sameWays
  | withdrawn hx => exact hs.located.frame (hx.sameWays_vacate hs)
  | setAside hy => exact hy.located hs hd
  | exchanged hz => exact hz.located hs
  | finished hz => exact hz.located_vacate hs

/-- **At each stage a file is left** under one of the two paths. -/
theorem Stage.recoverable_paths (h : Stage fs p s j new x) (hs : fs.Site p s j)
    (hj : fs.node? j = some old) (hu : fs.Unlinked p j) (hd : fs.Direct p s) :
    Recoverable x (x.occupant? p) (x.occupant? p.backupPath) old new := by
  have hl := h.located hs hd
  rw [hl.occupant? hs.admitted hs.name.plain]
  obtain hold | hnew | ⟨i, k, hy⟩ := h.old_or_new hs hj hu
  · exact recoverable_of_old hold
  · exact recoverable_of_new hnew
  · rw [(hl.backup hs.admitted).occupant? hy.admitted (plain_backup s)]
    exact hy.recoverable hs hj hu

/-- A path leads to the file under its last name, if it leads anywhere. -/
theorem site_of_resolve {data : Bytes} {slash : Bool} (he : fs.entry p = .ok (.slot s slash))
    (hj : fs.holds s = some j) (hfile : fs.node? j = some (.file mode data))
    (hi : fs.resolve p = .ok i) : i = j ∧ fs.Site p s j := by
  obtain ⟨ha, hslash, hplain, init, m, hnames, hm⟩ := way_of_entry he
  have hisfile : fs.IsFile j := ⟨mode, data, hfile⟩
  obtain ⟨-, n, hn⟩ := leads_of_resolve hi
  rw [hnames] at hn
  obtain ⟨l, d, h1, h2⟩ := hn.split rfl (by simp)
  cases s
  cases hm.agree h1
  cases h2 with
  | dot => exact absurd rfl hplain.ne_dot
  | dotDot => exact absurd rfl hplain.ne_dotDot
  | link _ _ hh ht _ =>
      cases hj.symm.trans hh
      cases hfile.symm.trans ht
  | enter _ hname hh _ hrest =>
      cases hj.symm.trans hh
      cases hrest with
      | here hd =>
          refine ⟨rfl, ha, ⟨?_, init, m, hnames, hm⟩, hname, hj, hisfile.deadEnd hj⟩
          cases hs : p.endsInSlash with
          | false => rfl
          | true => exact absurd (hd hs) (by simp [hisfile.not_isDirectory])

end FileSystem

namespace Replacement

open FileSystem

variable {p : Path} {j : NodeId} {mode : Mode} {data : Bytes}

/-! ### Runs -/

/-- **A replacement may be cut short after any call.** Of a path whose last name is a file, the name
then stands for the old file, for the new one or for nothing, and one of the two is left; so it is
with the two slots in any case, and with the two paths unless the path goes through a link at its own
second sibling. -/
theorem replaceFile_crash_safe (w : World) (p : Path) (contents : Bytes)
    (hj : w.files.occupant? p = some j) (hfile : w.files.node? j = some (.file mode data))
    (hu : w.files.Unlinked p j) :
    ∃ s slash states, w.files.entry p = .ok (.slot s slash) ∧
      (runIn w (replaceFile p contents)).2.past = states ++ w.past ∧
      ∀ x ∈ w.files :: states,
        x.Recoverable (x.holds s) (x.holds s.backup) (.file mode data) (.file mode contents) ∧
        (w.files.Direct p s →
          x.Recoverable (x.occupant? p) (x.occupant? p.backupPath) (.file mode data)
            (.file mode contents)) := by
  obtain ⟨s, slash, hentry, hholds⟩ : ∃ s slash, w.files.entry p = .ok (.slot s slash) ∧
      w.files.holds s = some j := by
    unfold occupant? at hj
    split at hj
    · rename_i s slash he
      exact ⟨s, slash, he, hj⟩
    · cases hj
  have hslot : (w.files.holds s).bind w.files.node? = some (.file mode data) := by
    rw [hholds, Option.bind_some, hfile]
  have hpath : (w.files.occupant? p).bind w.files.node? = some (.file mode data) := by
    rw [hj, Option.bind_some, hfile]
  cases hm : w.files.status p with
  | error e =>
      have hrun : runIn w (replaceFile p contents) =
          (.error ⟨[.stat p], .file e⟩, w.after w.files) :=
        runIn_bind_error (runIn_attempt_error _ (World.look_error hm)) _
      refine ⟨s, slash, [w.files], hentry, by rw [hrun]; rfl, fun x hx => ?_⟩
      have hx : x = w.files := by simpa using hx
      subst hx
      exact ⟨recoverable_of_old hslot, fun _ => recoverable_of_old hpath⟩
  | ok m =>
      obtain ⟨i, hi, -⟩ := bind_eq_ok_iff.mp hm
      obtain ⟨rfl, hs⟩ := site_of_resolve hentry hholds hfile hi
      cases hm.symm.trans (status_of_resolve hi hfile)
      obtain ⟨result, w', hrun, ⟨states, hpast, hstages⟩, -⟩ :=
        replaceFile_course hs hm contents w rfl
      refine ⟨s, slash, states, hentry, by rw [hrun]; exact hpast, fun x hx => ?_⟩
      have hstage : Stage w.files p s i (.file mode contents) x := by
        rcases List.mem_cons.mp hx with rfl | hx
        · exact .untouched
        · exact hstages x hx
      exact ⟨hstage.recoverable hs hfile hu, hstage.recoverable_paths hs hfile hu⟩

/-- A file, and at its second sibling a link to the directory of both. -/
def detour : FileSystem :=
  (FileSystem.initial.add ⟨4, utf8 "a"⟩ (.file 0o600 (utf8 "x\n"))).add ⟨4, utf8 "a~~"⟩
    (.symlink (.ofString "."))

/-- The link is lost, the file is not. -/
theorem replaceFile_crash_safe_detour :
    detour.occupant? (.ofString "a") = some 5 ∧
      detour.node? 5 = some (.file 0o600 (utf8 "x\n")) ∧ detour.Unlinked (.ofString "a") 5 ∧
      detour.Direct (.ofString "a") ⟨4, utf8 "a"⟩ ∧
      ∃ states, (runIn (World.of detour .unlimited)
          (replaceFile (.ofString "a") (utf8 "y\n"))).2.past = states ∧ states.length = 8 ∧
        ∀ x ∈ states, x.Recoverable (x.occupant? (.ofString "a")) (x.occupant? (.ofString "a~~"))
          (.file 0o600 (utf8 "x\n")) (.file 0o600 (utf8 "y\n")) := by
  have hj : detour.occupant? (.ofString "a") = some 5 := by decide +kernel
  have hfile : detour.node? 5 = some (.file 0o600 (utf8 "x\n")) := by decide +kernel
  have hu : detour.Unlinked (.ofString "a") 5 := by
    have hnone : detour.occupant? (Path.ofString "a").stagedPath = none := by decide +kernel
    constructor <;> simp [FileSystem.NoLink, hnone]
  have hd : detour.Direct (.ofString "a") ⟨4, utf8 "a"⟩ := .inr rfl
  refine ⟨hj, hfile, hu, hd, _, rfl, by decide +kernel, ?_⟩
  obtain ⟨s, slash, states, hentry, hpast, hsafe⟩ :=
    replaceFile_crash_safe (World.of detour .unlimited) (.ofString "a") (utf8 "y\n") hj hfile hu
  have hs : detour.entry (.ofString "a") = .ok (.slot ⟨4, utf8 "a"⟩ false) := rfl
  cases hs.symm.trans hentry
  intro x hx
  rw [hpast, show (World.of detour .unlimited).past = [] from rfl, List.append_nil] at hx
  exact (hsafe x (List.mem_cons_of_mem _ hx)).2 hd

/-- A path that goes through its second sibling is lost with it: once the old file stands there,
neither of the two paths leads anywhere. -/
theorem lost_through_second_sibling :
    detour.occupant? (.ofString "a~~/a") = some 5 ∧
      detour.node? 5 = some (.file 0o600 (utf8 "x\n")) ∧ detour.Unlinked (.ofString "a~~/a") 5 ∧
      ¬ ∀ x ∈ (runIn (World.of detour .unlimited)
          (replaceFile (.ofString "a~~/a") (utf8 "y\n"))).2.past,
        x.Recoverable (x.occupant? (.ofString "a~~/a"))
          (x.occupant? (Path.ofString "a~~/a").backupPath) (.file 0o600 (utf8 "x\n"))
          (.file 0o600 (utf8 "y\n")) := by
  refine ⟨by decide +kernel, by decide +kernel, ?_, fun hall => ?_⟩
  · have hnone : detour.occupant? (Path.ofString "a~~/a").stagedPath = none := by decide +kernel
    constructor <;> simp [FileSystem.NoLink, hnone]
  · have hlost : ∃ x ∈ (runIn (World.of detour .unlimited)
        (replaceFile (.ofString "a~~/a") (utf8 "y\n"))).2.past,
        x.occupant? (.ofString "a~~/a") = none ∧
          x.occupant? (Path.ofString "a~~/a").backupPath = none := by decide +kernel
    obtain ⟨x, hx, hname, hsecond⟩ := hlost
    have hleft := (hall x hx).left
    simp [hname, hsecond] at hleft

end Replacement
end StubInsertion
