import StubInsertion.Proofs.Batch.Simulation

/-! # The order of a batch

What a batch does to its files does not depend on their order, and a second batch does nothing.  The
ledger decides both: it ends with the same slots for every order of the list, and with all of these
slots filled there is nothing left to insert.

* **Trees.** The file systems that two orders lead to differ in the numbers of new files only
  (`Reached.sameTree`).
* **Counts.** A file that can be replaced under one spelling of its path and, because the path is too
  long, not under another one is counted differently in different orders
  (`counts_depend_on_order`).  Without such a file the counts do not depend on the order
  (`batch_of_listed`). -/

namespace StubInsertion

open FileSystem

/-- The same tree, up to the numbers of its files. -/
structure FileSystem.SameTree (fs fs' : FileSystem) : Prop where
  root : fs'.root = fs.root
  here : fs'.here = fs.here
  directory : ∀ i, fs.isDirectory i = true → fs'.node? i = fs.node? i
  inDirectory : ∀ s i, fs.holds s = some i → fs.isDirectory i = true → fs'.holds s = some i
  shows : ∀ s node, fs'.Shows s node ↔ fs.Shows s node
  vacant : ∀ s, fs'.holds s = none ↔ fs.holds s = none
  links : ∀ s t, fs'.holds s = fs'.holds t ↔ fs.holds s = fs.holds t

namespace Batch

variable {block : Block} {fs f1 f2 : FileSystem} {done done' : List Slot} {p : Path} {s t : Slot}

/-! ### Trees -/

namespace Reached

theorem of_perm (h : Reached block fs f1 done) (hp : done.Perm done') :
    Reached block fs f1 done' where
  root := h.root
  here := h.here
  directory := h.directory
  only := h.only
  kept s hs := h.kept s fun hmem => hs (hp.mem_iff.mp hmem)
  rewritten s hs := h.rewritten s (hp.mem_iff.mpr hs)

/-- What a file has become is settled by what it was. -/
theorem owns_both (h1 : Reached block fs f1 done) (h2 : Reached block fs f2 done) (hs : s ∈ done) :
    ∃ mode data, f1.Owns s (.file mode data) ∧ f2.Owns s (.file mode data) := by
  obtain ⟨mode, data, line, contents, hshows, hplan, howns⟩ := h1.rewritten s hs
  obtain ⟨mode', data', line', contents', hshows', hplan', howns'⟩ := h2.rewritten s hs
  cases hshows.unique hshows'
  cases hplan.symm.trans hplan'
  exact ⟨mode, contents, howns, howns'⟩

theorem shows_of_shows (h1 : Reached block fs f1 done) (h2 : Reached block fs f2 done) {node : Node}
    (h : f1.Shows s node) : f2.Shows s node := by
  by_cases hs : s ∈ done
  · obtain ⟨mode, data, howns1, howns2⟩ := h1.owns_both h2 hs
    rw [h.unique howns1.shows]
    exact howns2.shows
  · obtain ⟨i, hi, hnode⟩ := h
    obtain ⟨hh1, hn1⟩ := h1.kept s hs
    obtain ⟨hh2, hn2⟩ := h2.kept s hs
    have hi0 : fs.holds s = some i := hh1.symm.trans hi
    exact ⟨i, hh2.trans hi0, by rw [hn2 i hi0, ← hn1 i hi0, hnode]⟩

theorem vacant_of_vacant (h1 : Reached block fs f1 done) (h2 : Reached block fs f2 done)
    (h : f1.holds s = none) : f2.holds s = none := by
  by_cases hs : s ∈ done
  · obtain ⟨mode, data, ⟨i, hi, -⟩, -⟩ := h1.owns_both h2 hs
    rw [h] at hi
    cases hi
  · rw [(h2.kept s hs).holds, ← (h1.kept s hs).holds, h]

/-- Two names of one file are two names of one file in the other file system. -/
theorem linked_of_linked (h1 : Reached block fs f1 done) (h2 : Reached block fs f2 done)
    (h : f1.holds s = f1.holds t) : f2.holds s = f2.holds t := by
  by_cases hs : s ∈ done
  · obtain ⟨mode, data, ⟨i, hi, -, honly⟩, -⟩ := h1.owns_both h2 hs
    rw [honly t (h ▸ hi)]
  · by_cases ht : t ∈ done
    · obtain ⟨mode, data, ⟨i, hi, -, honly⟩, -⟩ := h1.owns_both h2 ht
      rw [honly s (h ▸ hi)]
    · rw [(h2.kept s hs).holds, (h2.kept t ht).holds, ← (h1.kept s hs).holds,
        ← (h1.kept t ht).holds, h]

/-- **What has been reached is settled by which files have had their turn.** -/
theorem sameTree (h1 : Reached block fs f1 done) (h2 : Reached block fs f2 done) :
    f1.SameTree f2 where
  root := h2.root.trans h1.root.symm
  here := h2.here.trans h1.here.symm
  directory i hi := by
    have hi0 := h1.only i hi
    rw [h2.directory i hi0, h1.directory i hi0]
  inDirectory s i hi hdir := by
    by_cases hs : s ∈ done
    · obtain ⟨mode, data, ⟨j, hj, hnode, -⟩, -⟩ := h1.owns_both h2 hs
      cases hi.symm.trans hj
      simp [FileSystem.isDirectory, hnode, Node.isDirectory] at hdir
    · rw [(h2.kept s hs).holds, ← (h1.kept s hs).holds, hi]
  shows _ _ := ⟨h2.shows_of_shows h1, h1.shows_of_shows h2⟩
  vacant _ := ⟨h2.vacant_of_vacant h1, h1.vacant_of_vacant h2⟩
  links _ _ := ⟨h2.linked_of_linked h1, h1.linked_of_linked h2⟩

end Reached

/-! ### Counts -/

/-- The run of a batch whose report is not limited. -/
def batch (block : Block) (fs : FileSystem) (paths : List Path) : Except Failure Summary × World :=
  runIn (World.of fs .unlimited) (runBatch block paths)

/-- The ledger of a batch. -/
def ledgerOf (block : Block) (fs : FileSystem) (paths : List Path) : Ledger :=
  Ledger.run (itemOf block fs) ⟨[], .empty⟩ paths

/-- Every unmarked file is listed only under spellings whose sibling `~~` is short enough to be
looked up, or only under spellings whose sibling is not. -/
def SpelledAlike (block : Block) (fs : FileSystem) (paths : List Path) : Prop :=
  ∀ p ∈ paths, ∀ q ∈ paths, ∀ s mode data, fs.entry p = .ok (.slot s false) →
    fs.entry q = .ok (.slot s false) → fs.Shows s (.file mode data) →
    Source.plan data block ≠ .alreadyMarked →
    p.backupPath.bytes.length ≤ maxPath → q.backupPath.bytes.length ≤ maxPath

variable {paths paths' : List Path}

theorem batch_ledger (block : Block) (hp : ∀ p ∈ paths, Listed fs p) :
    ∃ w, batch block fs paths = (.ok (ledgerOf block fs paths).summary, w) ∧
      Reached block fs w.files (ledgerOf block fs paths).done := by
  have hstart : Reached block fs (World.of fs .unlimited).files [] := Reached.refl block fs
  obtain ⟨w, hrun, hw, -⟩ := runFrom_ledger (l := ⟨[], .empty⟩) hp hstart rfl
  exact ⟨w, hrun, hw⟩

/-- An unmarked file is a regular one that `plan` would change. -/
theorem Listed.of_unmarked {fits : Bool} (h : Listed fs p)
    (hi : itemOf block fs p = .unmarked s fits) :
    fits = decide (Fits p s) ∧ ∃ mode data line contents, fs.Regular p s mode data ∧
      Source.plan data block = .insert line contents := by
  have hst := h.stands block
  rw [hi] at hst
  generalize hitem : Item.unmarked s fits = item at hst
  cases hst with
  | unreadable hc => cases hitem
  | marked hr hplan => cases hitem
  | unmarked hr hplan =>
      cases hitem
      exact ⟨rfl, _, _, _, _, hr, hplan⟩

/-- A file that fails on its own is not replaced under another spelling. -/
theorem SpelledAlike.notMem_done (ha : SpelledAlike block fs paths)
    (hp : ∀ p ∈ paths, Listed fs p) (p : Path) (hmem : p ∈ paths) (s : Slot)
    (hi : itemOf block fs p = .unmarked s false) : s ∉ (ledgerOf block fs paths).done := by
  intro hs
  obtain ⟨hfits, mode, data, line, contents, hr, hplan⟩ := (hp p hmem).of_unmarked hi
  obtain hnil | ⟨q, hq, hiq⟩ := (Ledger.mem_done_run ..).mp hs
  · exact absurd hnil List.not_mem_nil
  obtain ⟨hfits', _, _, _, _, hr', -⟩ := (hp q hq).of_unmarked hiq
  have hq2 : Fits q s := of_decide_eq_true hfits'.symm
  have hlen (p : Path) : p.backupPath.bytes.length = p.bytes.length + 2 := List.length_append
  have := ha q hq p hmem s mode data hr'.entry hr.entry hr.shows (by rw [hplan]; simp)
  rw [hlen, hlen] at this
  exact of_decide_eq_false hfits.symm ⟨this hq2.path, hq2.name⟩

theorem SpelledAlike.perm (ha : SpelledAlike block fs paths) (h : paths.Perm paths') :
    SpelledAlike block fs paths' :=
  fun p hp q hq => ha p (h.mem_iff.mpr hp) q (h.mem_iff.mpr hq)

theorem failed_ledgerOf (hp : ∀ p ∈ paths, Listed fs p) (ha : SpelledAlike block fs paths) :
    (ledgerOf block fs paths).summary.failed =
      paths.filter fun p => (itemOf block fs p).fails := by
  unfold ledgerOf
  rw [Ledger.failed_run _ _ (ha.notMem_done hp)]
  rfl

/-- **Neither the slots of a batch nor the number of insertions depends on the order.** -/
theorem ledgerOf_perm (block : Block) (fs : FileSystem) (h : paths.Perm paths') :
    (ledgerOf block fs paths').done.Perm (ledgerOf block fs paths).done ∧
      (ledgerOf block fs paths').summary.inserted = (ledgerOf block fs paths).summary.inserted := by
  have hperm : (ledgerOf block fs paths').done.Perm (ledgerOf block fs paths).done :=
    Ledger.perm_done_run _ _ List.nodup_nil h
  have h1 : (ledgerOf block fs paths).summary.inserted + 0 = 0 + _ := Ledger.inserted_run _ _ paths
  have h2 : (ledgerOf block fs paths').summary.inserted + 0 = 0 + _ := Ledger.inserted_run _ _ paths'
  have hlen := hperm.length_eq
  refine ⟨hperm, ?_⟩
  unfold ledgerOf at *
  omega

/-- The other counts do not depend on the order either if the paths are spelled alike. -/
theorem ledgerOf_perm_of_spelledAlike (hp : ∀ p ∈ paths, Listed fs p)
    (ha : SpelledAlike block fs paths) (h : paths.Perm paths') :
    (ledgerOf block fs paths').summary.alreadyMarked =
        (ledgerOf block fs paths).summary.alreadyMarked ∧
      (ledgerOf block fs paths').summary.failed.length =
        (ledgerOf block fs paths).summary.failed.length := by
  have hp' : ∀ p ∈ paths', Listed fs p := fun p hmem => hp p (h.mem_iff.mpr hmem)
  have hfailed : (ledgerOf block fs paths').summary.failed.length =
      (ledgerOf block fs paths).summary.failed.length := by
    rw [failed_ledgerOf hp' (ha.perm h), failed_ledgerOf hp ha]
    exact (h.filter _).length_eq.symm
  have hinserted := (ledgerOf_perm block fs h).2
  have h1 : (ledgerOf block fs paths).summary.total = 0 + _ := Ledger.total_run _ _ paths
  have h2 : (ledgerOf block fs paths').summary.total = 0 + _ := Ledger.total_run _ _ paths'
  have hlen := h.length_eq
  unfold Summary.total at h1 h2
  refine ⟨?_, hfailed⟩
  omega

/-! ### A second batch -/

/-- **A second batch does nothing**, and fails at the same paths if they are spelled alike. -/
theorem batch_again {w : World} (hp : ∀ p ∈ paths, Listed fs p)
    (hw : Reached block fs w.files (ledgerOf block fs paths).done) :
    ∃ summary w', batch block w.files paths = (.ok summary, w') ∧ w'.files = w.files ∧
      summary.inserted = 0 ∧
      (SpelledAlike block fs paths → summary.failed = (ledgerOf block fs paths).summary.failed) := by
  have hfull : ∀ p ∈ paths, ∀ s, itemOf block fs p = .unmarked s true →
      s ∈ (ledgerOf block fs paths).done := by
    intro p hmem s hi
    exact (Ledger.mem_done_run ..).mpr (.inr ⟨p, hmem, hi⟩)
  have hdone := Ledger.done_run (itemOf block fs) ⟨_, .empty⟩ hfull
  obtain ⟨w', hrun, -, hsame⟩ := runFrom_ledger (w := World.of w.files .unlimited)
    (l := ⟨(ledgerOf block fs paths).done, .empty⟩) hp hw rfl
  refine ⟨_, w', hrun, hsame hfull, ?_, ?_⟩
  · have := Ledger.inserted_run (itemOf block fs) ⟨(ledgerOf block fs paths).done, .empty⟩ paths
    rw [hdone] at this
    exact Nat.add_right_cancel this
  · intro ha
    rw [failed_ledgerOf hp ha]
    apply Ledger.failed_run
    rw [hdone]
    exact ha.notMem_done hp

/-! ### Files -/

/-- What a batch leaves: every listed file has the block or is as it was, because it was marked or
its path failed, and every slot in which no listed path finds a regular file is as it was, be it
listed or not. Only paths fail that cannot be read or have no room. -/
structure Treated (block : Block) (fs : FileSystem) (paths failures : List Path)
    (fs' : FileSystem) : Prop where
  root : fs'.root = fs.root
  here : fs'.here = fs.here
  directory : ∀ i, fs.isDirectory i = true → fs'.node? i = fs.node? i
  listed : ∀ p ∈ paths, ∀ s slash mode data, fs.entry p = .ok (.slot s slash) →
    fs.Shows s (.file mode data) →
      (∃ line contents, Source.plan data block = .insert line contents ∧
        fs'.Owns s (.file mode contents)) ∨
      fs.SameAt fs' s ∧ (Source.plan data block = .alreadyMarked ∨ p ∈ failures)
  others : ∀ s, (∀ p ∈ paths, ∀ slash mode data, fs.entry p = .ok (.slot s slash) →
    ¬ fs.Shows s (.file mode data)) → fs.SameAt fs' s
  failed : ∀ p ∈ failures, p ∈ paths ∧ ((∃ e, fs.contents p = .error e) ∨
    ∃ s, fs.entry p = .ok (.slot s false) ∧ ¬ Fits p s)

/-- A listed file that is not replaced is marked already, or its path fails. -/
theorem marked_or_failed {slash : Bool} {mode : Mode} {data : Bytes} (hl : Listed fs p)
    (hmem : p ∈ paths) (hentry : fs.entry p = .ok (.slot s slash))
    (hshows : fs.Shows s (.file mode data)) (hs : s ∉ (ledgerOf block fs paths).done) :
    Source.plan data block = .alreadyMarked ∨ p ∈ (ledgerOf block fs paths).summary.failed := by
  have hst := hl.stands block
  generalize hitem : itemOf block fs p = item at hst
  cases hst with
  | unreadable hc =>
      refine .inr (Ledger.mem_failed_run _ _ hmem ?_ ?_)
      · rw [hitem]
        rfl
      · intro t ht
        rw [hitem] at ht
        cases ht
  | marked hr hplan =>
      cases hr.entry.symm.trans hentry
      cases hr.shows.unique hshows
      exact .inl hplan
  | unmarked hr hplan =>
      cases hr.entry.symm.trans hentry
      -- With room for the replacement the slot would have had its turn.
      have hf : ¬ Fits p s := by
        intro hf
        rw [decide_eq_true hf] at hitem
        exact hs ((Ledger.mem_done_run ..).mpr (.inr ⟨p, hmem, hitem⟩))
      rw [decide_eq_false hf] at hitem
      refine .inr (Ledger.mem_failed_run _ _ hmem ?_ ?_)
      · rw [hitem]
        rfl
      · intro t ht
        rw [hitem] at ht
        cases ht
        exact hs

/-- A path whose item fails cannot be read or has no room. -/
theorem Listed.of_fails (h : Listed fs p) (hf : (itemOf block fs p).fails = true) :
    (∃ e, fs.contents p = .error e) ∨ ∃ s, fs.entry p = .ok (.slot s false) ∧ ¬ Fits p s := by
  have hst := h.stands block
  generalize itemOf block fs p = item at hst hf
  cases hst with
  | unreadable hc => exact .inl ⟨_, hc⟩
  | marked hr hplan => cases hf
  | unmarked hr hplan =>
      refine .inr ⟨_, hr.entry, fun hfits => ?_⟩
      simp [Item.fails, hfits] at hf

theorem treated_of_reached {fs' : FileSystem} (hp : ∀ p ∈ paths, Listed fs p)
    (h : Reached block fs fs' (ledgerOf block fs paths).done) :
    Treated block fs paths (ledgerOf block fs paths).summary.failed fs' where
  root := h.root
  here := h.here
  directory := h.directory
  listed p hmem s slash mode data hentry hshows := by
    by_cases hs : s ∈ (ledgerOf block fs paths).done
    · obtain ⟨m, d, line, contents, hshows', hplan, howns⟩ := h.rewritten s hs
      cases hshows.unique hshows'
      exact .inl ⟨line, contents, hplan, howns⟩
    · exact .inr ⟨h.kept s hs, marked_or_failed (hp p hmem) hmem hentry hshows hs⟩
  others s hno := by
    apply h.kept
    intro hs
    obtain hnil | ⟨p, hmem, hi⟩ := (Ledger.mem_done_run ..).mp hs
    · exact absurd hnil List.not_mem_nil
    · obtain ⟨-, mode, data, line, contents, hr, -⟩ := (hp p hmem).of_unmarked hi
      exact hno p hmem false mode data hr.entry hr.shows
  failed p hfail := by
    obtain hnil | ⟨hmem, hf⟩ := Ledger.of_mem_failed_run _ _ hfail
    · exact absurd hnil List.not_mem_nil
    · exact ⟨hmem, (hp p hmem).of_fails hf⟩

/-! ### Spellings that differ in room -/

theorem listed_of_regular {mode : Mode} {data : Bytes} (h : fs.Regular p s mode data) :
    Listed fs p := by
  obtain ⟨i, hi, hnode⟩ := h.shows
  have ho := (h.located.occupant? h.admitted h.plain).trans hi
  exact .inr ⟨⟨i, mode, data, ho, hnode⟩, h.staged, h.backup⟩

theorem itemOf_of_regular {mode : Mode} {data contents : Bytes} {line : Nat}
    (h : fs.Regular p s mode data) (hplan : Source.plan data block = .insert line contents) :
    itemOf block fs p = .unmarked s (decide (Fits p s)) := by
  unfold itemOf
  rw [h.contents, h.entry]
  dsimp only
  rw [hplan]

/-- **Two spellings of a file that differ in room** are counted differently in different orders and
in a second batch. -/
theorem batch_two_spellings {q : Path} {mode : Mode} {data contents : Bytes} {line : Nat}
    (hp : fs.Regular p s mode data) (hq : fs.Regular q s mode data)
    (hplan : Source.plan data block = .insert line contents) (hfp : ¬ Fits p s) (hfq : Fits q s) :
    ∃ w w' w'', batch block fs [p, q] = (.ok ⟨1, 0, [p]⟩, w) ∧
      batch block fs [q, p] = (.ok ⟨1, 1, []⟩, w') ∧
      batch block w.files [p, q] = (.ok ⟨0, 2, []⟩, w'') := by
  have hip := itemOf_of_regular hp hplan
  have hiq := itemOf_of_regular hq hplan
  rw [decide_eq_false hfp] at hip
  rw [decide_eq_true hfq] at hiq
  have hpq : ∀ x ∈ [p, q], Listed fs x := by
    simp [listed_of_regular hp, listed_of_regular hq]
  have hqp : ∀ x ∈ [q, p], Listed fs x := by
    simp [listed_of_regular hp, listed_of_regular hq]
  have h1 : ledgerOf block fs [p, q] = ⟨[s], ⟨1, 0, [p]⟩⟩ := by
    simp [ledgerOf, Ledger.run, Ledger.enter, hip, hiq, Summary.empty]
  have h2 : ledgerOf block fs [q, p] = ⟨[s], ⟨1, 1, []⟩⟩ := by
    simp [ledgerOf, Ledger.run, Ledger.enter, hip, hiq, Summary.empty]
  have h3 : Ledger.run (itemOf block fs) ⟨[s], .empty⟩ [p, q] = ⟨[s], ⟨0, 2, []⟩⟩ := by
    simp [Ledger.run, Ledger.enter, hip, hiq, Summary.empty]
  obtain ⟨w, hrun, hw⟩ := batch_ledger block hpq
  obtain ⟨w', hrun', -⟩ := batch_ledger block hqp
  rw [h1] at hrun hw
  rw [h2] at hrun'
  obtain ⟨w'', hrun'', -⟩ := runFrom_ledger (w := World.of w.files .unlimited)
    (l := ⟨[s], .empty⟩) hpq hw rfl
  rw [h3] at hrun''
  exact ⟨w, w', w'', hrun, hrun', hrun''⟩

/-- A working directory with one source file. -/
def oneSource : FileSystem :=
  FileSystem.initial.add ⟨4, utf8 "a.py"⟩ (.file 0o644 (utf8 "x = 1\n"))

/-- The source file by its name. -/
def shortSpelling : Path := .ofString "a.py"

/-- The source file with `./` so many times ahead of its name that only the sibling `~~` is too
long. -/
def longSpelling : Path := ⟨(List.replicate 2045 [0x2e, 0x2f]).flatten ++ utf8 "a.py"⟩

theorem regular_oneSource (hc : (oneSource.contents p).isOk = true)
    (ho : oneSource.occupant? p = some 5) :
    oneSource.Regular p ⟨4, utf8 "a.py"⟩ 0o644 (utf8 "x = 1\n") := by
  have hnode : oneSource.node? 5 = some (.file 0o644 (utf8 "x = 1\n")) := by decide +kernel
  obtain ⟨i, hi, -, honly⟩ := FileSystem.initial.owns_add ⟨4, utf8 "a.py"⟩
    (.file 0o644 (utf8 "x = 1\n"))
  have hfive : oneSource.holds ⟨4, utf8 "a.py"⟩ = some 5 := by decide +kernel
  cases hi.symm.trans hfive
  cases hread : oneSource.contents p with
  | error e =>
      rw [hread] at hc
      cases hc
  | ok bytes =>
      obtain ⟨ha, s, hs, hl, hn⟩ := exists_locates_of_contents hread ho
      cases honly s hs
      -- the siblings are looked for in the directory, not by their long paths
      have hstaged : oneSource.holds ⟨4, utf8 "a.py~"⟩ = none := by decide +kernel
      have hbackup : oneSource.holds ⟨4, utf8 "a.py~~"⟩ = none := by decide +kernel
      exact ⟨ha, hl, hn, ⟨5, hfive, hnode⟩,
        (hl.staged ha).occupant?_eq_none (plain_staged _) hstaged,
        (hl.backup ha).occupant?_eq_none (plain_backup _) hbackup⟩

theorem regular_shortSpelling :
    oneSource.Regular shortSpelling ⟨4, utf8 "a.py"⟩ 0o644 (utf8 "x = 1\n") :=
  regular_oneSource (by decide +kernel) (by decide +kernel)

theorem regular_longSpelling :
    oneSource.Regular longSpelling ⟨4, utf8 "a.py"⟩ 0o644 (utf8 "x = 1\n") :=
  regular_oneSource (by decide +kernel) (by decide +kernel)

theorem plan_oneSource : Source.plan (utf8 "x = 1\n") Block.short = .insert 1 (utf8 "M\nx = 1\n") := by
  decide +kernel

theorem listed_oneSource : ∀ p ∈ [longSpelling, shortSpelling], Listed oneSource p := by
  simp [listed_of_regular regular_longSpelling, listed_of_regular regular_shortSpelling]

/-- **The counts of a batch depend on its order**, and those of a second batch are others. -/
theorem counts_depend_on_order :
    (∀ p ∈ [longSpelling, shortSpelling], Listed oneSource p) ∧
      [longSpelling, shortSpelling].Perm [shortSpelling, longSpelling] ∧
      ∃ w w' w'', batch Block.short oneSource [longSpelling, shortSpelling] =
          (.ok ⟨1, 0, [longSpelling]⟩, w) ∧
        batch Block.short oneSource [shortSpelling, longSpelling] = (.ok ⟨1, 1, []⟩, w') ∧
        batch Block.short w.files [longSpelling, shortSpelling] = (.ok ⟨0, 2, []⟩, w'') := by
  have hlong : ¬ Fits longSpelling ⟨4, utf8 "a.py"⟩ := by decide +kernel
  have hshort : Fits shortSpelling ⟨4, utf8 "a.py"⟩ := by decide +kernel
  exact ⟨listed_oneSource, .swap _ _ _, batch_two_spellings regular_longSpelling
    regular_shortSpelling plan_oneSource hlong hshort⟩

/-! ### The whole list -/

/-- **A batch treats its files in any order and once.** Every file has the block or is as it was, all
orders lead to the same tree and the same number of insertions, and a second batch changes nothing;
the other counts and the failures are the same as well if the paths are spelled alike. -/
theorem batch_of_listed (block : Block) (fs : FileSystem) (paths : List Path)
    (hp : ∀ p ∈ paths, Listed fs p) :
    ∃ summary w, batch block fs paths = (.ok summary, w) ∧
      Treated block fs paths summary.failed w.files ∧
      (∀ paths', paths.Perm paths' → ∃ summary' w', batch block fs paths' = (.ok summary', w') ∧
        w.files.SameTree w'.files ∧ summary'.inserted = summary.inserted ∧
        (SpelledAlike block fs paths → summary'.alreadyMarked = summary.alreadyMarked ∧
          summary'.failed.length = summary.failed.length)) ∧
      ∃ summary' w', batch block w.files paths = (.ok summary', w') ∧ w'.files = w.files ∧
        summary'.inserted = 0 ∧
        (SpelledAlike block fs paths → summary'.failed = summary.failed) := by
  obtain ⟨w, hrun, hw⟩ := batch_ledger block hp
  refine ⟨_, w, hrun, treated_of_reached hp hw, ?_, batch_again hp hw⟩
  intro paths' hperm
  have hp' : ∀ p ∈ paths', Listed fs p := fun p hmem => hp p (hperm.mem_iff.mpr hmem)
  obtain ⟨w', hrun', hw'⟩ := batch_ledger block hp'
  obtain ⟨hdone, hinserted⟩ := ledgerOf_perm block fs hperm
  exact ⟨_, w', hrun', hw.sameTree (hw'.of_perm hdone), hinserted,
    fun ha => ledgerOf_perm_of_spelledAlike hp ha hperm⟩

/-- A file listed twice and one that is missing, and stays so. -/
theorem batch_of_listed_source :
    (∀ p ∈ [shortSpelling, .ofString "b.py", shortSpelling], Listed oneSource p) ∧
      ∃ summary w, batch Block.short oneSource [shortSpelling, .ofString "b.py", shortSpelling] =
          (.ok summary, w) ∧
        Treated Block.short oneSource [shortSpelling, .ofString "b.py", shortSpelling]
          summary.failed w.files ∧
        w.files.holds ⟨4, utf8 "b.py"⟩ = none ∧
        ∃ summary' w', batch Block.short w.files
            [shortSpelling, .ofString "b.py", shortSpelling] = (.ok summary', w') ∧
          w'.files = w.files ∧ summary'.failed = summary.failed := by
  have hmissing : Listed oneSource (.ofString "b.py") := .inl ⟨.refused .notFound, rfl⟩
  have hlisted : ∀ p ∈ [shortSpelling, .ofString "b.py", shortSpelling], Listed oneSource p := by
    simp [hmissing, listed_of_regular regular_shortSpelling]
  have hshort : ∀ q ∈ [shortSpelling, .ofString "b.py", shortSpelling],
      q.backupPath.bytes.length ≤ maxPath := by decide
  have halike : SpelledAlike Block.short oneSource
      [shortSpelling, .ofString "b.py", shortSpelling] :=
    fun _ _ q hq _ _ _ _ _ _ _ _ => hshort q hq
  obtain ⟨summary, w, hrun, htreated, -, summary', w', hrun', hsame, -, hfailed⟩ :=
    batch_of_listed Block.short oneSource _ hlisted
  have hvacant : oneSource.holds ⟨4, utf8 "b.py"⟩ = none := by decide +kernel
  have hkept : oneSource.SameAt w.files ⟨4, utf8 "b.py"⟩ := by
    refine htreated.others _ fun _ _ _ _ _ _ hshows => ?_
    obtain ⟨i, hi, -⟩ := hshows
    rw [hvacant] at hi
    cases hi
  exact ⟨hlisted, summary, w, hrun, htreated, hkept.holds.trans hvacant, summary', w', hrun', hsame,
    hfailed halike⟩

end Batch
end StubInsertion
