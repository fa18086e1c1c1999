import StubInsertion.Proofs.Batch.Account

/-! # Batches with a limited report

An output that refuses bytes ends a batch.  The files do not know of the output, so the batch has
done until then what one without a limit does with the paths that have had their turn:

* **Lines.** The refused line is that of the last path which had its turn, and the output keeps what
  fits of it (`runFrom_refused`).
* **Limits.** With room for `n` bytes the first `n` bytes of the report are written, and the last
  path is the end of the shortest part of the list whose report is longer (`batch_with_limit`). -/

namespace StubInsertion

namespace Sink

variable {s : Sink} {a : Bytes}

/-- Bytes that follow others that were refused. -/
theorem write_append_of_refused {e : FileError} (h : (s.write a).1 = .error e) (b : Bytes) :
    s.write (a ++ b) = s.write a := by
  obtain ⟨taken, room, refusal⟩ := s
  cases room with
  | none => cases h
  | some room =>
      have ha : ¬ a.length ≤ room := by
        intro hle
        simp [write, hle] at h
      have hab : ¬ a.length + b.length ≤ room := by omega
      have htake : (a ++ b).take room = a.take room := List.take_append_of_le_length (by omega)
      have hroom : room - (a.length + b.length) = room - a.length := by omega
      simp [write, ha, hab, htake, hroom]

theorem write_limited (n : Nat) (bytes : Bytes) :
    (Sink.limited n).write bytes = (if bytes.length ≤ n then .ok () else .error .shortWrite,
      ⟨bytes.take n, some (n - bytes.length), .shortWrite⟩) := by
  by_cases h : bytes.length ≤ n <;> simp [write, limited, h]

end Sink

namespace Batch

variable {block : Block} {fs : FileSystem} {p : Path} {w w' : World} {paths : List Path}

/-! ### Refused lines -/

theorem runIn_report_refused {failure : Failure} {e : FileError}
    (h : (w.output.write (failureLine p failure)).1 = .error e) :
    runIn w (report p failure) = (.error ⟨[.writeReport], .file e⟩,
      w.withOutput (w.output.write (failureLine p failure)).2) :=
  runIn_attempt_error _ (congrArg (·, w.withOutput (w.output.write _).2) h)

/-- The batch ends with a path of which the line is refused. -/
theorem runFrom_stops {e : FileError} (h : (w.output.write (reportOf block w [p])).1 = .error e)
    (summary : Summary) (paths : List Path) :
    runIn w (runFrom block summary (p :: paths)) = (.error ⟨[.writeReport], .file e⟩,
      (worldAfter block w [p]).withOutput (w.output.write (reportOf block w [p])).2) := by
  cases hrun : runIn w (processFile block p) with | mk result w₁
  have hout := output_of_processFile hrun
  cases result with
  | ok outcome =>
      rw [reportOf_singleton_ok hrun, Sink.write_nil] at h
      cases h
  | error failure =>
      rw [reportOf_singleton_error hrun, ← hout] at h ⊢
      rw [worldAfter_cons hrun]
      exact runFrom_cons_unreported hrun (runIn_report_refused h) summary paths

/-- **A batch ends at the first line that is refused.** -/
theorem runFrom_refused {e : FileError}
    (h : (w.output.write (reportOf block w paths)).1 = .error e) (summary : Summary) :
    ∃ xs p ys, paths = xs ++ p :: ys ∧ (w.output.write (reportOf block w xs)).1 = .ok () ∧
      (w.output.write (reportOf block w (xs ++ [p]))).1 = .error e ∧
      runIn w (runFrom block summary paths) = (.error ⟨[.writeReport], .file e⟩,
        (worldAfter block w (xs ++ [p])).withOutput
          (w.output.write (reportOf block w paths)).2) := by
  induction paths generalizing w summary with
  | nil =>
      have hnil : (w.output.write []).1 = .error e := h
      rw [Sink.write_nil] at hnil
      cases hnil
  | cons q paths ih =>
      cases hline : (w.output.write (reportOf block w [q])).1 with
      | ok _ =>
          -- the refused line is that of a path behind `q`
          obtain ⟨result, w', turn⟩ := exists_turn hline
          rw [turn.write] at h
          obtain ⟨xs, p, ys, rfl, hxs, hp, hrest⟩ := ih h (summary.add q result)
          refine ⟨q :: xs, p, ys, rfl, ?_, ?_, ?_⟩
          · rw [turn.write]
            exact hxs
          · rw [List.cons_append, turn.write]
            exact hp
          · rw [turn.run, hrest, turn.write, List.cons_append, turn.world]
      | error e' =>
          -- what would follow on the line of `q` is not written either
          have hwhole : w.output.write (reportOf block w (q :: paths)) =
              w.output.write (reportOf block w [q]) := by
            rw [← List.singleton_append, reportOf_append, Sink.write_append_of_refused hline]
          rw [hwhole, hline] at h
          cases h
          exact ⟨[], q, paths, rfl, congrArg Prod.fst (Sink.write_nil _), hline,
            by rw [hwhole]; exact runFrom_stops hline summary paths⟩

/-! ### Limits -/

/-- The report of a batch without a limit. -/
def fullReport (block : Block) (fs : FileSystem) (paths : List Path) : Bytes :=
  (batch block fs paths).2.output.taken

/-- The run of a batch whose report may be `n` bytes long. -/
def limitedBatch (block : Block) (fs : FileSystem) (n : Nat) (paths : List Path) :
    Except Failure Summary × World :=
  runIn (World.of fs (.limited n)) (runBatch block paths)

/-- The first `k` paths are the shortest part of the list whose report is longer than `n` bytes. -/
structure CutAfter (block : Block) (fs : FileSystem) (n : Nat) (paths : List Path) (k : Nat) :
    Prop where
  le_length : k ≤ paths.length
  longer : n < (fullReport block fs (paths.take k)).length
  shortest : ∀ j < k, (fullReport block fs (paths.take j)).length ≤ n

theorem fullReport_eq (block : Block) (fs : FileSystem) (paths : List Path) :
    fullReport block fs paths = reportOf block (World.of fs .unlimited) paths := by
  rw [fullReport, batch_eq_settled]
  rfl

/-- The report grows with the list. -/
theorem length_fullReport_le (block : Block) (fs : FileSystem) (xs ys : List Path) :
    (fullReport block fs xs).length ≤ (fullReport block fs (xs ++ ys)).length := by
  rw [fullReport_eq, fullReport_eq, reportOf_append, List.length_append]
  exact Nat.le_add_right _ _

/-- What an output with a limit makes of a report. -/
theorem write_reportOf_limited (block : Block) (fs : FileSystem) (n : Nat) (paths : List Path) :
    (World.of fs (.limited n)).output.write (reportOf block (World.of fs (.limited n)) paths) =
      (if (fullReport block fs paths).length ≤ n then .ok () else .error .shortWrite,
        ⟨(fullReport block fs paths).take n, some (n - (fullReport block fs paths).length),
          .shortWrite⟩) := by
  have hreport : reportOf block (World.of fs (.limited n)) paths = fullReport block fs paths := by
    rw [fullReport_eq]
    exact reportOf_withOutput (World.of fs .unlimited) (.limited n) paths
  rw [hreport]
  exact Sink.write_limited n _

theorem cutAfter {n : Nat} {xs ys : List Path} (hxs : (fullReport block fs xs).length ≤ n)
    (hp : n < (fullReport block fs (xs ++ [p])).length) :
    CutAfter block fs n (xs ++ p :: ys) (xs.length + 1) where
  le_length := by simp
  longer := by
    rw [← List.singleton_append, ← List.append_assoc, List.take_left' (by simp)]
    exact hp
  shortest j hj := by
    rw [List.take_append_of_le_length (Nat.le_of_lt_succ hj)]
    refine Nat.le_trans ?_ hxs
    have := length_fullReport_le block fs (xs.take j) (xs.drop j)
    rwa [List.take_append_drop] at this

/-- A limit to the report changes nothing but the output. -/
theorem worldAfter_limited (block : Block) (fs : FileSystem) (n : Nat) (paths : List Path) :
    worldAfter block (World.of fs (.limited n)) paths =
      (batch block fs paths).2.withOutput (.limited n) := by
  rw [batch_eq_settled]
  exact (account_withOutput block (World.of fs .unlimited) (.limited n) paths).2

theorem limitedBatch_of_fits {n : Nat} (h : (fullReport block fs paths).length ≤ n) :
    ∃ summary w w', batch block fs paths = (.ok summary, w) ∧
      limitedBatch block fs n paths = (.ok summary, w') ∧ w'.files = w.files ∧
      w'.past = w.past ∧ w'.output.taken = w.output.taken := by
  have hwrite := write_reportOf_limited block fs n paths
  rw [if_pos h, List.take_of_length_le h] at hwrite
  have haccount : account block (World.of fs (.limited n)) paths =
      account block (World.of fs .unlimited) paths :=
    (account_withOutput block (World.of fs .unlimited) (.limited n) paths).1
  have hrun : limitedBatch block fs n paths = _ :=
    runFrom_taken (w := World.of fs (.limited n)) (congrArg Prod.fst hwrite) .empty
  rw [haccount, worldAfter_limited, hwrite] at hrun
  have hbatch := batch_eq_settled block fs paths
  exact ⟨_, (batch block fs paths).2, _, by rw [hbatch]; rfl, hrun, rfl, rfl, rfl⟩

theorem limitedBatch_of_longer {n : Nat} (h : n < (fullReport block fs paths).length) :
    ∃ failure k w', CutAfter block fs n paths k ∧
      limitedBatch block fs n paths = (.error failure, w') ∧
      failure.message = "write report: failed to write whole buffer" ∧
      w'.output.taken = (fullReport block fs paths).take n ∧
      w'.files = (batch block fs (paths.take k)).2.files ∧
      w'.past = (batch block fs (paths.take k)).2.past := by
  have hwrite := write_reportOf_limited block fs n paths
  rw [if_neg (Nat.not_le.mpr h)] at hwrite
  obtain ⟨xs, p, ys, rfl, hxs, hp, hrun⟩ :=
    runFrom_refused (w := World.of fs (.limited n)) (congrArg Prod.fst hwrite) .empty
  rw [write_reportOf_limited] at hxs hp
  have hfits : (fullReport block fs xs).length ≤ n := by
    by_contra hlt
    simp [hlt] at hxs
  have hlonger : n < (fullReport block fs (xs ++ [p])).length := by
    by_contra hle
    simp [Nat.not_lt.mp hle] at hp
  have htake : (xs ++ p :: ys).take (xs.length + 1) = xs ++ [p] := by
    rw [← List.singleton_append, ← List.append_assoc, List.take_left' (by simp)]
  rw [worldAfter_limited, hwrite] at hrun
  refine ⟨_, xs.length + 1, _, cutAfter hfits hlonger, hrun, by decide, rfl, ?_, ?_⟩
  · rw [htake]
    rfl
  · rw [htake]
    rfl

/-- **A report that cannot be written ends the batch at a definite path.** With room for the whole
report a batch does what it does without a limit. Otherwise it fails with the first `n` bytes of the
report written, and has done with the files what a batch does with the shortest part of the list
whose report is longer than `n` bytes: no later path has been looked at. -/
theorem batch_with_limit (block : Block) (fs : FileSystem) (paths : List Path) (n : Nat) :
    ((fullReport block fs paths).length ≤ n →
      ∃ summary w w', batch block fs paths = (.ok summary, w) ∧
        limitedBatch block fs n paths = (.ok summary, w') ∧ w'.files = w.files ∧
        w'.past = w.past ∧ w'.output.taken = w.output.taken) ∧
    (n < (fullReport block fs paths).length →
      ∃ failure k w', CutAfter block fs n paths k ∧
        limitedBatch block fs n paths = (.error failure, w') ∧
        failure.message = "write report: failed to write whole buffer" ∧
        w'.output.taken = (fullReport block fs paths).take n ∧
        w'.files = (batch block fs (paths.take k)).2.files ∧
        w'.past = (batch block fs (paths.take k)).2.past) :=
  ⟨limitedBatch_of_fits, limitedBatch_of_longer⟩

/-- A missing file and a source file behind it. -/
theorem batch_with_limit_missing :
    let paths := [.ofString "b.py", shortSpelling]
    ((fullReport Block.short oneSource paths).length ≤ 100 ∧
      ∃ summary w w', batch Block.short oneSource paths = (.ok summary, w) ∧
        limitedBatch Block.short oneSource 100 paths = (.ok summary, w') ∧ w'.files = w.files) ∧
    10 < (fullReport Block.short oneSource paths).length ∧
      ∃ failure k w', CutAfter Block.short oneSource 10 paths k ∧
        limitedBatch Block.short oneSource 10 paths = (.error failure, w') ∧
        w'.output.taken = (fullReport Block.short oneSource paths).take 10 ∧
        w'.files = (batch Block.short oneSource (paths.take k)).2.files := by
  intro paths
  have hfits : (fullReport Block.short oneSource paths).length ≤ 100 := by decide +kernel
  have hlonger : 10 < (fullReport Block.short oneSource paths).length := by decide +kernel
  obtain ⟨summary, w, w', hbatch, hlimited, hfiles, -⟩ :=
    (batch_with_limit Block.short oneSource paths 100).1 hfits
  obtain ⟨failure, k, w'', hk, hrun, -, htaken, hcut, -⟩ :=
    (batch_with_limit Block.short oneSource paths 10).2 hlonger
  exact ⟨⟨hfits, summary, w, w', hbatch, hlimited, hfiles⟩, hlonger, failure, k, w'', hk, hrun,
    htaken, hcut⟩

end Batch
end StubInsertion
