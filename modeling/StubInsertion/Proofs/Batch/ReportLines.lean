import Mathlib.Algebra.Order.BigOperators.Group.List
import Mathlib.Algebra.Order.Group.Nat
import StubInsertion.Proofs.Batch.Account
import StubInsertion.Proofs.Failures

/-! # The lines of a report

The report of a batch is cut into lines failure by failure, since what is reported of each ends in a
newline.  A failure has one line, and one more for every newline of its path each time the path is
shown (`length_lines_failureLine`).  So the report has one line for each failing path if and only if
no failing path holds a newline (`report_lineEach_iff`); `report_torn` is a path that does. -/

namespace StubInsertion

namespace Source

/-- A closed text has as many lines as newlines. -/
theorem length_lines {text : Bytes} (h : Closed text) :
    (lines text).length = text.count newline := by
  induction text with
  | nil => rfl
  | cons b text ih =>
      cases text with
      | nil =>
          rw [closed_singleton.mp h]
          rfl
      | cons c text =>
          have ih := ih (closed_cons_cons.mp h)
          have hne := lines_ne_nil (List.cons_ne_nil c text)
          obtain ⟨line, more, hl⟩ := List.exists_cons_of_ne_nil hne
          rw [hl] at ih
          rw [lines_cons, hl]
          split
          · rename_i hb
            rw [hb, List.count_cons_self, List.length_cons, ih]
          · rename_i hb
            rw [List.count_cons_of_ne hb, ← ih]
            rfl

/-- The lines of a closed text all end in a newline. -/
theorem getLast?_of_mem_lines {text : Bytes} (h : Closed text) :
    ∀ l ∈ lines text, l.getLast? = some newline := by
  have hended := (cut_lines (text ++ [newline])).ended
  have hlast : lines [newline] = [[newline]] := rfl
  rwa [lines_append h, hlast, List.dropLast_concat] at hended

end Source

namespace Batch

open Source

/-- The words with which the report of a failing path starts. -/
def opening : Bytes := utf8 "Unable to process source_file \""

/-- The report has one line for each failing path, each ended by a newline and starting with the
words for a failing path. -/
structure LineEach (failed : List Path) (report : Bytes) : Prop where
  ended : ∀ l ∈ lines report, l.getLast? = some newline
  length_eq : (lines report).length = failed.length
  opened : ∀ l ∈ lines report, opening <+: l

/-- The lines that the report of a failure takes. -/
def linesTaken (p : Path) (failure : Failure) : Nat :=
  1 + (1 + failure.paths.length) * p.bytes.count newline

variable {p : Path} {failure : Failure}

/-! ### One failure -/

theorem closed_failureLine (p : Path) (failure : Failure) : Closed (failureLine p failure) :=
  closed_concat_newline _

theorem opening_prefix_failureLine (p : Path) (failure : Failure) :
    opening <+: failureLine p failure := by
  unfold failureLine reportLine
  rw [utf8_append, utf8_append, utf8_append, List.append_assoc, List.append_assoc,
    List.append_assoc]
  exact List.prefix_append _ _

theorem length_lines_failureLine (h : failure.Concerns p) :
    (lines (failureLine p failure)).length = linesTaken p failure := by
  rw [length_lines (closed_failureLine p failure), failureLine, List.count_append,
    count_newline_utf8, count_reportLine h, linesTaken, Nat.add_comm]
  rfl

/-- Without a newline in the path, the report of a failure is one line. -/
theorem lines_failureLine (h : failure.Concerns p) (hp : newline ∉ p.bytes) :
    lines (failureLine p failure) = [failureLine p failure] := by
  refine lines_of_inner (by simp [failureLine]) ?_
  rw [failureLine, List.dropLast_concat, ← List.count_eq_zero, count_newline_utf8,
    count_reportLine h, List.count_eq_zero.mpr hp, Nat.mul_zero]

/-! ### Some failures -/

theorem closed_reported (failures : List (Path × Failure)) : Closed (reported failures) := by
  induction failures with
  | nil => exact closed_nil
  | cons f failures ih => exact (closed_failureLine f.1 f.2).append ih

/-- The report is cut failure by failure. -/
theorem lines_reported (failures : List (Path × Failure)) :
    lines (reported failures) = failures.flatMap fun f => lines (failureLine f.1 f.2) := by
  induction failures with
  | nil => rfl
  | cons f failures ih =>
      rw [List.flatMap_cons, ← ih]
      exact lines_append (closed_failureLine f.1 f.2) _

theorem length_lines_reported {failures : List (Path × Failure)}
    (h : ∀ f ∈ failures, f.2.Concerns f.1) :
    (lines (reported failures)).length = (failures.map fun f => linesTaken f.1 f.2).sum := by
  rw [lines_reported, List.length_flatMap]
  exact congrArg List.sum (List.map_congr_left fun f hf => length_lines_failureLine (h f hf))

theorem lines_reported_of_unbroken {failures : List (Path × Failure)}
    (h : ∀ f ∈ failures, f.2.Concerns f.1) (hp : ∀ f ∈ failures, newline ∉ f.1.bytes) :
    lines (reported failures) = failures.map fun f => failureLine f.1 f.2 := by
  have hone : ∀ f ∈ failures, lines (failureLine f.1 f.2) = [failureLine f.1 f.2] :=
    fun f hf => lines_failureLine (h f hf) (hp f hf)
  rw [lines_reported, List.flatMap_congr hone]
  exact List.map_eq_flatMap.symm

/-- A path that holds a newline takes more than its one line. -/
theorem length_lt_lines_reported {failures : List (Path × Failure)}
    (h : ∀ f ∈ failures, f.2.Concerns f.1) {f : Path × Failure} (hf : f ∈ failures)
    (hp : newline ∈ f.1.bytes) : failures.length < (lines (reported failures)).length := by
  have hone : ∀ g ∈ failures, 1 ≤ linesTaken g.1 g.2 := fun _ _ => Nat.le_add_right _ _
  have hmore : 1 < linesTaken f.1 f.2 :=
    Nat.lt_add_of_pos_right (Nat.mul_pos (by omega) (List.count_pos_iff.mpr hp))
  have hsum := List.sum_lt_sum (fun _ => 1) (fun g => linesTaken g.1 g.2) hone ⟨f, hf, hmore⟩
  rw [List.map_const', List.sum_replicate_nat, Nat.mul_one] at hsum
  rwa [length_lines_reported h]

theorem lineEach_reported_iff {failures : List (Path × Failure)}
    (h : ∀ f ∈ failures, f.2.Concerns f.1) :
    LineEach (failures.map Prod.fst) (reported failures) ↔ ∀ f ∈ failures, newline ∉ f.1.bytes := by
  constructor
  · intro hline f hf hp
    have hmore := length_lt_lines_reported h hf hp
    have hlength := hline.length_eq
    rw [List.length_map] at hlength
    omega
  · intro hp
    have hlines := lines_reported_of_unbroken h hp
    refine ⟨getLast?_of_mem_lines (closed_reported failures), by rw [hlines]; simp, fun l hl => ?_⟩
    rw [hlines, List.mem_map] at hl
    obtain ⟨f, -, rfl⟩ := hl
    exact opening_prefix_failureLine f.1 f.2

/-! ### Batches -/

/-- Every failure of a batch is that of its path. -/
theorem concerns_of_mem_failures (block : Block) (w : World) (paths : List Path) :
    ∀ f ∈ failures (account block w paths), f.2.Concerns f.1 := by
  induction paths generalizing w with
  | nil => simp [account]
  | cons p paths ih =>
      cases hrun : runIn w (processFile block p) with | mk result w'
      rw [account_cons hrun]
      cases result with
      | ok outcome => exact ih w'
      | error failure =>
          rw [failures_cons_error, List.forall_mem_cons]
          refine ⟨fails_processFile p block w failure ?_, ih w'⟩
          exact congrArg Prod.fst hrun

/-- **A report has one line for each failing path if and only if no failing path holds a newline.**
In general a failure takes one line, and one more for every newline of its path each time the path
or a sibling of it is shown. -/
theorem report_lineEach_iff (block : Block) (fs : FileSystem) (paths : List Path) :
    ∃ verdicts summary w, batch block fs paths = (.ok summary, w) ∧
      Accounted block fs paths verdicts summary w ∧
      (lines w.output.taken).length = ((failures verdicts).map fun f => linesTaken f.1 f.2).sum ∧
      (LineEach summary.failed w.output.taken ↔ ∀ p ∈ summary.failed, newline ∉ p.bytes) := by
  have hconcerns := concerns_of_mem_failures block (World.of fs .unlimited) paths
  have haccount := accounted block fs paths
  refine ⟨_, _, _, batch_eq_settled block fs paths, haccount, ?_, ?_⟩
  · rw [haccount.report, length_lines_reported hconcerns]
  · rw [haccount.report, haccount.failed, lineEach_reported_iff hconcerns, List.forall_mem_map]

/-- A missing file whose name holds a newline: three lines for one path. -/
theorem report_torn :
    ∃ summary w, batch Block.short oneSource [.ofString "a\nb"] = (.ok summary, w) ∧
      summary.failed = [.ofString "a\nb"] ∧
      lines w.output.taken = [utf8 "Unable to process source_file \"a\n", utf8 "b\": read a\n",
        utf8 "b: No such file or directory (os error 2)\n"] ∧
      ¬ LineEach summary.failed w.output.taken := by
  have hresult : (batch Block.short oneSource [.ofString "a\nb"]).1 =
      .ok ⟨0, 0, [.ofString "a\nb"]⟩ := by decide +kernel
  have hlines : lines (batch Block.short oneSource [.ofString "a\nb"]).2.output.taken =
      [utf8 "Unable to process source_file \"a\n", utf8 "b\": read a\n",
        utf8 "b: No such file or directory (os error 2)\n"] := by decide +kernel
  have htorn : ¬ LineEach [.ofString "a\nb"]
      (batch Block.short oneSource [.ofString "a\nb"]).2.output.taken := fun h => by
    have hlength := h.length_eq
    rw [hlines] at hlength
    cases hlength
  exact ⟨_, _, Prod.ext hresult rfl, rfl, hlines, htorn⟩

end Batch
end StubInsertion
