import Mathlib.Data.List.Nodup
import StubInsertion.Batch
import StubInsertion.Files.FileSystem

/-! # Ledgers

The bookkeeping of a batch without its file system: what a path of the list stands for (`Item`), and
which slots have been given the block so far together with the summary (`Ledger`).

* **Contents.** A ledger lists the slots that some path can fill, each once (`mem_done_run`,
  `nodup_done_run`), and its summary counts every path once (`inserted_run`, `total_run`).
* **Failures.** If no path fails at a slot that another one fills, the failing paths are those that
  fail on their own (`failed_run`).
* **Order.** The slots do not depend on the order of the list (`perm_done_run`). -/

namespace StubInsertion

/-- The number of paths that have been counted. -/
def Summary.total (s : Summary) : Nat := s.inserted + s.alreadyMarked + s.failed.length

namespace Batch

/-- What a path of a list stands for: something that cannot be read, a marked file, or an unmarked
one in its slot, with or without room for a new file beside it. -/
inductive Item
  | unreadable
  | marked
  | unmarked (slot : Slot) (fits : Bool)

/-- Does treating the path fail, if nothing is in its slot yet? -/
def Item.fails : Item → Bool
  | .unreadable => true
  | .marked => false
  | .unmarked _ fits => !fits

/-- The slots that have been given the block, and what has been counted. -/
structure Ledger where
  done : List Slot
  summary : Summary

namespace Ledger

/-- One more path. -/
def enter (l : Ledger) (p : Path) : Item → Ledger
  | .unreadable => { l with summary.failed := l.summary.failed ++ [p] }
  | .marked => { l with summary.alreadyMarked := l.summary.alreadyMarked + 1 }
  | .unmarked s fits =>
    if s ∈ l.done then { l with summary.alreadyMarked := l.summary.alreadyMarked + 1 }
    else if fits then { l with done := s :: l.done, summary.inserted := l.summary.inserted + 1 }
    else { l with summary.failed := l.summary.failed ++ [p] }

/-- The paths of a list one after the other. -/
def run (item : Path → Item) (l : Ledger) : List Path → Ledger
  | [] => l
  | p :: paths => run item (l.enter p (item p)) paths

variable (item : Path → Item) (l : Ledger)

/-! ### One path -/

theorem mem_done_enter (p : Path) (i : Item) (s : Slot) :
    s ∈ (l.enter p i).done ↔ s ∈ l.done ∨ i = .unmarked s true := by
  cases i with
  | unreadable => simp [enter]
  | marked => simp [enter]
  | unmarked t fits =>
      unfold enter
      dsimp only
      split
      · rename_i ht
        constructor
        · exact .inl
        · rintro (hs | heq)
          · exact hs
          · cases heq
            exact ht
      · cases fits with
        | true => simp [or_comm, eq_comm]
        | false => simp

theorem nodup_done_enter (h : l.done.Nodup) (p : Path) (i : Item) : (l.enter p i).done.Nodup := by
  cases i with
  | unreadable => exact h
  | marked => exact h
  | unmarked t fits =>
      unfold enter
      dsimp only
      split
      · exact h
      · rename_i ht
        split
        · exact List.nodup_cons.mpr ⟨ht, h⟩
        · exact h

theorem inserted_enter (p : Path) (i : Item) :
    (l.enter p i).summary.inserted + l.done.length =
      l.summary.inserted + (l.enter p i).done.length := by
  cases i with
  | unreadable => rfl
  | marked => rfl
  | unmarked t fits =>
      unfold enter
      dsimp only
      split
      · rfl
      · split
        · simp only [List.length_cons]
          omega
        · rfl

theorem total_enter (p : Path) (i : Item) :
    (l.enter p i).summary.total = l.summary.total + 1 := by
  unfold Summary.total
  cases i with
  | unreadable =>
      simp only [enter, List.length_append, List.length_singleton]
      omega
  | marked =>
      simp only [enter]
      omega
  | unmarked t fits =>
      unfold enter
      dsimp only
      split
      · dsimp only
        omega
      · split
        · dsimp only
          omega
        · simp only [List.length_append, List.length_singleton]
          omega

theorem failed_enter (p : Path) {i : Item} (hi : ∀ s, i = .unmarked s false → s ∉ l.done) :
    (l.enter p i).summary.failed = l.summary.failed ++ if i.fails then [p] else [] := by
  cases i with
  | unreadable => simp [enter, Item.fails]
  | marked => simp [enter, Item.fails]
  | unmarked t fits =>
      unfold enter Item.fails
      dsimp only
      cases fits with
      | true => split <;> simp
      | false => simp [hi t rfl]

theorem done_enter (p : Path) {i : Item} (hi : ∀ s, i = .unmarked s true → s ∈ l.done) :
    (l.enter p i).done = l.done := by
  cases i with
  | unreadable => rfl
  | marked => rfl
  | unmarked t fits =>
      unfold enter
      dsimp only
      cases fits with
      | true => rw [if_pos (hi t rfl)]
      | false => split <;> rfl

theorem mem_failed_enter {p q : Path} (h : q ∈ l.summary.failed) (i : Item) :
    q ∈ (l.enter p i).summary.failed := by
  cases i with
  | unreadable => exact List.mem_append_left _ h
  | marked => exact h
  | unmarked t fits =>
      unfold enter
      dsimp only
      split
      · exact h
      · split
        · exact h
        · exact List.mem_append_left _ h

theorem of_mem_failed_enter {p q : Path} {i : Item} (h : q ∈ (l.enter p i).summary.failed) :
    q ∈ l.summary.failed ∨ q = p ∧ i.fails = true := by
  cases i with
  | unreadable =>
      rcases List.mem_append.mp h with h | h
      · exact .inl h
      · exact .inr ⟨List.mem_singleton.mp h, rfl⟩
  | marked => exact .inl h
  | unmarked t fits =>
      unfold enter at h
      dsimp only at h
      split at h
      · exact .inl h
      · cases fits with
        | true => exact .inl h
        | false =>
            rcases List.mem_append.mp h with h | h
            · exact .inl h
            · exact .inr ⟨List.mem_singleton.mp h, rfl⟩

/-! ### Lists of paths -/

theorem mem_done_run (paths : List Path) (s : Slot) :
    s ∈ (run item l paths).done ↔ s ∈ l.done ∨ ∃ p ∈ paths, item p = .unmarked s true := by
  induction paths generalizing l with
  | nil => simp [run]
  | cons p paths ih => rw [run, ih, mem_done_enter, List.exists_mem_cons_iff, or_assoc]

theorem nodup_done_run (h : l.done.Nodup) (paths : List Path) :
    (run item l paths).done.Nodup := by
  induction paths generalizing l with
  | nil => exact h
  | cons p paths ih => exact ih _ (l.nodup_done_enter h p (item p))

/-- As many insertions are counted as slots are filled. -/
theorem inserted_run (paths : List Path) :
    (run item l paths).summary.inserted + l.done.length =
      l.summary.inserted + (run item l paths).done.length := by
  induction paths generalizing l with
  | nil => rfl
  | cons p paths ih =>
      have h1 := ih (l.enter p (item p))
      have h2 := l.inserted_enter p (item p)
      rw [run]
      omega

theorem total_run (paths : List Path) :
    (run item l paths).summary.total = l.summary.total + paths.length := by
  induction paths generalizing l with
  | nil => rfl
  | cons p paths ih =>
      have h1 := ih (l.enter p (item p))
      have h2 := l.total_enter p (item p)
      rw [run, List.length_cons]
      omega

/-- **Every path that fails on its own is reported**, unless its slot is filled by another one. -/
theorem failed_run {paths : List Path}
    (h : ∀ p ∈ paths, ∀ s, item p = .unmarked s false → s ∉ (run item l paths).done) :
    (run item l paths).summary.failed =
      l.summary.failed ++ paths.filter fun p => (item p).fails := by
  induction paths generalizing l with
  | nil => simp [run]
  | cons p paths ih =>
      rw [List.forall_mem_cons] at h
      have hp (s : Slot) (hs : item p = .unmarked s false) : s ∉ l.done := by
        intro hmem
        exact h.1 s hs ((mem_done_run item l (p :: paths) s).mpr (.inl hmem))
      rw [run, ih (l.enter p (item p)) h.2, failed_enter l p hp, List.append_assoc,
        List.filter_cons]
      split <;> simp

theorem mem_failed_run_of_mem {q : Path} (h : q ∈ l.summary.failed) (paths : List Path) :
    q ∈ (run item l paths).summary.failed := by
  induction paths generalizing l with
  | nil => exact h
  | cons p paths ih => exact ih _ (l.mem_failed_enter h (item p))

/-- A path that fails on its own is reported if its slot is never filled. -/
theorem mem_failed_run {paths : List Path} {p : Path} (hp : p ∈ paths)
    (hf : (item p).fails = true)
    (hs : ∀ s, item p = .unmarked s false → s ∉ (run item l paths).done) :
    p ∈ (run item l paths).summary.failed := by
  induction paths generalizing l with
  | nil => exact absurd hp List.not_mem_nil
  | cons q paths ih =>
      rcases List.mem_cons.mp hp with rfl | hp
      · have hl (s : Slot) (hi : item p = .unmarked s false) : s ∉ l.done := by
          intro hmem
          exact hs s hi ((mem_done_run item l (p :: paths) s).mpr (.inl hmem))
        have hmem : p ∈ (l.enter p (item p)).summary.failed := by
          rw [failed_enter l p hl, if_pos hf]
          exact List.mem_append_right _ (List.mem_singleton_self p)
        exact mem_failed_run_of_mem item _ hmem paths
      · exact ih _ hp hs

/-- Only paths that fail on their own are reported. -/
theorem of_mem_failed_run {paths : List Path} {q : Path}
    (h : q ∈ (run item l paths).summary.failed) :
    q ∈ l.summary.failed ∨ q ∈ paths ∧ (item q).fails = true := by
  induction paths generalizing l with
  | nil => exact .inl h
  | cons p paths ih =>
      obtain hl | ⟨hq, hf⟩ := ih _ h
      · obtain hl | ⟨rfl, hf⟩ := l.of_mem_failed_enter hl
        · exact .inl hl
        · exact .inr ⟨List.mem_cons_self, hf⟩
      · exact .inr ⟨List.mem_cons_of_mem p hq, hf⟩

/-- Nothing is inserted if all that could be is there. -/
theorem done_run {paths : List Path}
    (h : ∀ p ∈ paths, ∀ s, item p = .unmarked s true → s ∈ l.done) :
    (run item l paths).done = l.done := by
  induction paths generalizing l with
  | nil => rfl
  | cons p paths ih =>
      rw [List.forall_mem_cons] at h
      have hp := l.done_enter p h.1
      have hrest : ∀ q ∈ paths, ∀ s, item q = .unmarked s true → s ∈ (l.enter p (item p)).done := by
        rw [hp]
        exact h.2
      rw [run, ih _ hrest, hp]

/-- **The order of the paths does not matter for the slots.** -/
theorem perm_done_run (h : l.done.Nodup) {paths paths' : List Path} (hp : paths.Perm paths') :
    (run item l paths').done.Perm (run item l paths).done := by
  rw [List.perm_ext_iff_of_nodup (nodup_done_run item l h paths') (nodup_done_run item l h paths)]
  intro s
  rw [mem_done_run, mem_done_run]
  simp only [hp.mem_iff]

end Ledger
end Batch
end StubInsertion
