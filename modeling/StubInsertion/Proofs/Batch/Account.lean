import StubInsertion.Proofs.Batch.Order
import StubInsertion.Proofs.Confinement

/-! # The account of a batch

What a batch does, path by path.  A verdict says what became of one path; the verdicts of a list of
paths (`account`) settle the summary (`Summary.tally`) and the report (`reported`).  The report has
no effect on what follows (`exists_turn`), so a batch whose report is taken comes to its account
(`runFrom_taken`).

* **Accounting.** Every path has one verdict, that of treating it in the world the paths ahead of it
  lead to, and every failure is reported once (`Accounted`).
* **Isolation.** A path that cannot be read adds itself to the failures and its line to the report,
  and nothing else (`batch_isolates_failures`). -/

namespace StubInsertion

/-! ### Outputs that take everything -/

namespace Sink

variable {s : Sink} {a : Bytes}

theorem write_nil (s : Sink) : s.write [] = (.ok (), s) := by
  obtain ⟨taken, room, refusal⟩ := s
  cases room <;> simp [write]

theorem taken_of_append {b : Bytes} (h : (s.write (a ++ b)).1 = .ok ()) :
    (s.write a).1 = .ok () := by
  obtain ⟨taken, room, refusal⟩ := s
  cases room with
  | none => rfl
  | some room =>
      have hab : a.length + b.length ≤ room := by
        by_contra hlt
        simp [write, hlt] at h
      have ha : a.length ≤ room := by omega
      simp [write, ha]

/-- Bytes that follow others that were taken. -/
theorem write_append_of_taken (h : (s.write a).1 = .ok ()) (b : Bytes) :
    s.write (a ++ b) = (s.write a).2.write b := by
  obtain ⟨taken, room, refusal⟩ := s
  cases room with
  | none => simp [write]
  | some room =>
      have ha : a.length ≤ room := by
        by_contra hlt
        simp [write, hlt] at h
      have hb : a.length + b.length ≤ room ↔ b.length ≤ room - a.length := by omega
      simp only [write, ha, if_true, List.length_append, List.take_append, hb, Nat.sub_sub,
        List.append_assoc, List.take_of_length_le ha]

end Sink

namespace Batch

/-! ### Verdicts -/

/-- A path and what became of it. -/
abbrev Verdict := Path × Except Failure FileOutcome

namespace Verdict

/-- The file got the block. -/
def isInserted : Verdict → Bool
  | (_, .ok (.inserted _)) => true
  | _ => false

/-- The file was marked. -/
def isMarked : Verdict → Bool
  | (_, .ok .alreadyMarked) => true
  | _ => false

/-- The failure, if the path failed. -/
def failure? : Verdict → Option (Path × Failure)
  | (_, .ok _) => none
  | (p, .error failure) => some (p, failure)

end Verdict

/-- The paths that failed, each with its failure. -/
def failures (verdicts : List Verdict) : List (Path × Failure) :=
  verdicts.filterMap Verdict.failure?

@[simp] theorem failures_nil : failures [] = [] := rfl

@[simp] theorem failures_cons_ok (p : Path) (outcome : FileOutcome) (verdicts : List Verdict) :
    failures ((p, .ok outcome) :: verdicts) = failures verdicts := rfl

@[simp] theorem failures_cons_error (p : Path) (failure : Failure) (verdicts : List Verdict) :
    failures ((p, .error failure) :: verdicts) = (p, failure) :: failures verdicts := rfl

/-- The line that is reported of a failure. -/
def failureLine (p : Path) (failure : Failure) : Bytes :=
  utf8 (reportLine p failure.chain) ++ [newline]

/-- What is reported of some failures. -/
def reported (failures : List (Path × Failure)) : Bytes :=
  failures.flatMap fun f => failureLine f.1 f.2

end Batch

open Batch

/-- The summary after some more verdicts. -/
def Summary.tally (s : Summary) (verdicts : List Verdict) : Summary :=
  verdicts.foldl (fun s v => s.add v.1 v.2) s

namespace Summary

theorem tally_cons (s : Summary) (v : Verdict) (verdicts : List Verdict) :
    s.tally (v :: verdicts) = (s.add v.1 v.2).tally verdicts := rfl

theorem tally_eq (s : Summary) (verdicts : List Verdict) :
    s.tally verdicts = ⟨s.inserted + verdicts.countP Verdict.isInserted,
      s.alreadyMarked + verdicts.countP Verdict.isMarked,
      s.failed ++ (failures verdicts).map Prod.fst⟩ := by
  induction verdicts generalizing s with
  | nil => simp [tally]
  | cons v verdicts ih =>
      rw [tally_cons, ih]
      obtain ⟨p, (failure | (line | _))⟩ := v
      · simp [add, Verdict.isInserted, Verdict.isMarked]
      · simp [add, Verdict.isInserted, Verdict.isMarked, List.countP_cons]
        omega
      · simp [add, Verdict.isInserted, Verdict.isMarked, List.countP_cons]
        omega

theorem inserted_tally (verdicts : List Verdict) :
    (empty.tally verdicts).inserted = verdicts.countP Verdict.isInserted := by
  rw [tally_eq]
  exact Nat.zero_add _

theorem alreadyMarked_tally (verdicts : List Verdict) :
    (empty.tally verdicts).alreadyMarked = verdicts.countP Verdict.isMarked := by
  rw [tally_eq]
  exact Nat.zero_add _

theorem failed_tally (verdicts : List Verdict) :
    (empty.tally verdicts).failed = (failures verdicts).map Prod.fst := by
  rw [tally_eq]
  rfl

theorem total_add (s : Summary) (v : Verdict) : (s.add v.1 v.2).total = s.total + 1 := by
  obtain ⟨p, (failure | (line | _))⟩ := v <;> simp [add, total] <;> omega

/-- Every verdict is counted. -/
theorem total_tally (s : Summary) (verdicts : List Verdict) :
    (s.tally verdicts).total = s.total + verdicts.length := by
  induction verdicts generalizing s with
  | nil => rfl
  | cons v verdicts ih =>
      rw [tally_cons, ih, total_add, List.length_cons]
      omega

end Summary

namespace Batch

theorem failures_append (vs ws : List Verdict) :
    failures (vs ++ ws) = failures vs ++ failures ws := List.filterMap_append

theorem reported_append (fs gs : List (Path × Failure)) :
    reported (fs ++ gs) = reported fs ++ reported gs := List.flatMap_append

theorem failures_sublist (verdicts : List Verdict) :
    ((failures verdicts).map Prod.fst).Sublist (verdicts.map Prod.fst) := by
  induction verdicts with
  | nil => exact .slnil
  | cons v verdicts ih =>
      obtain ⟨p, (failure | outcome)⟩ := v
      · exact ih.cons_cons p
      · exact ih.cons p

/-! ### Accounts -/

variable {block : Block} {fs : FileSystem} {p : Path} {w w' : World}
  {result : Except Failure FileOutcome}

/-- The verdicts on the paths of a list. -/
def account (block : Block) (w : World) (paths : List Path) : List Verdict :=
  List.zipWith (fun p run => (p, run.1)) paths (w.runs (processFile block) paths)

/-- The world after the paths of a list, but for the report. -/
def worldAfter (block : Block) (w : World) (paths : List Path) : World :=
  w.through (processFile block) paths

theorem account_cons (h : runIn w (processFile block p) = (result, w')) (paths : List Path) :
    account block w (p :: paths) = (p, result) :: account block w' paths := by
  rw [account, World.runs, h]
  rfl

theorem worldAfter_cons (h : runIn w (processFile block p) = (result, w')) (paths : List Path) :
    worldAfter block w (p :: paths) = worldAfter block w' paths :=
  World.through_cons (processFile block) h paths

theorem worldAfter_append (w : World) (xs ys : List Path) :
    worldAfter block w (xs ++ ys) = worldAfter block (worldAfter block w xs) ys :=
  w.through_append _ xs ys

theorem account_append (block : Block) (w : World) (xs ys : List Path) :
    account block w (xs ++ ys) =
      account block w xs ++ account block (worldAfter block w xs) ys := by
  induction xs generalizing w with
  | nil => rfl
  | cons p xs ih => exact congrArg (_ :: ·) (ih _)

theorem map_fst_account (block : Block) (w : World) (paths : List Path) :
    (account block w paths).map Prod.fst = paths := by
  induction paths generalizing w with
  | nil => rfl
  | cons p paths ih => exact congrArg (p :: ·) (ih _)

theorem account_getElem? (w : World) (paths : List Path) (k : Nat) :
    (account block w paths)[k]? =
      paths[k]?.map fun p =>
        (p, (runIn (worldAfter block w (paths.take k)) (processFile block p)).1) := by
  rw [account, List.getElem?_zipWith, World.runs_getElem?]
  cases paths[k]? <;> rfl

/-- The account does not depend on the output. -/
theorem account_withOutput (block : Block) (w : World) (output : Sink) (paths : List Path) :
    account block (w.withOutput output) paths = account block w paths ∧
      worldAfter block (w.withOutput output) paths =
        (worldAfter block w paths).withOutput output := by
  induction paths generalizing w with
  | nil => exact ⟨rfl, rfl⟩
  | cons p paths ih =>
      have hrun := (confined_processFile p block).runIn_withOutput w output
      obtain ⟨haccount, hworld⟩ := ih (runIn w (processFile block p)).2
      rw [account_cons hrun, worldAfter_cons hrun, haccount, hworld]
      exact ⟨rfl, rfl⟩

theorem leaves_worldAfter (w : World) (paths : List Path) :
    w.Leaves (worldAfter block w paths).files (worldAfter block w paths) := by
  induction paths generalizing w with
  | nil => exact ⟨rfl, rfl, rfl⟩
  | cons p paths ih => exact ((confined_processFile p block).leaves w).trans (ih _)

/-- The account depends on the files alone. -/
theorem account_congr (block : Block) (h : w.files = w'.files) (paths : List Path) :
    account block w paths = account block w' paths ∧
      (worldAfter block w paths).files = (worldAfter block w' paths).files := by
  induction paths generalizing w w' with
  | nil => exact ⟨rfl, h⟩
  | cons p paths ih =>
      obtain ⟨hresult, hfiles⟩ := (confined_processFile p block).runIn_congr h
      obtain ⟨haccount, hworld⟩ := ih hfiles
      exact ⟨List.cons_eq_cons.mpr ⟨Prod.ext rfl hresult, haccount⟩, hworld⟩

/-! ### Reports -/

/-- The report of a batch that has room for it. -/
def reportOf (block : Block) (w : World) (paths : List Path) : Bytes :=
  reported (failures (account block w paths))

theorem reportOf_append (w : World) (xs ys : List Path) :
    reportOf block w (xs ++ ys) =
      reportOf block w xs ++ reportOf block (worldAfter block w xs) ys := by
  unfold reportOf
  rw [account_append, failures_append, reported_append]

theorem reportOf_withOutput (w : World) (output : Sink) (paths : List Path) :
    reportOf block (w.withOutput output) paths = reportOf block w paths := by
  unfold reportOf
  rw [(account_withOutput block w output paths).1]

/-! ### One path -/

section turn

variable {failure : Failure}

theorem reportOf_singleton_ok {outcome : FileOutcome}
    (h : runIn w (processFile block p) = (.ok outcome, w')) : reportOf block w [p] = [] := by
  rw [reportOf, account_cons h]
  rfl

theorem reportOf_singleton_error (h : runIn w (processFile block p) = (.error failure, w')) :
    reportOf block w [p] = failureLine p failure := by
  rw [reportOf, account_cons h]
  exact List.append_nil _

theorem output_of_processFile (h : runIn w (processFile block p) = (result, w')) :
    w'.output = w.output := by
  have hout := ((confined_processFile p block).leaves w).output
  rwa [h] at hout

theorem runIn_report_taken (h : (w.output.write (failureLine p failure)).1 = .ok ()) :
    runIn w (report p failure) =
      (.ok (), w.withOutput (w.output.write (failureLine p failure)).2) :=
  runIn_attempt_ok _ (congrArg (·, w.withOutput (w.output.write _).2) h)

/-- The path `p` has had its turn, its failure has been reported if it failed, and the other paths
have their turn in the world `w'`. -/
structure Turn (block : Block) (w : World) (p : Path) (result : Except Failure FileOutcome)
    (w' : World) : Prop where
  run (summary : Summary) (paths : List Path) : runIn w (runFrom block summary (p :: paths)) =
    runIn w' (runFrom block (summary.add p result) paths)
  account (paths : List Path) : account block w (p :: paths) = (p, result) :: account block w' paths
  world (paths : List Path) (output : Sink) : (worldAfter block w (p :: paths)).withOutput output =
    (worldAfter block w' paths).withOutput output
  write (paths : List Path) : w.output.write (reportOf block w (p :: paths)) =
    w'.output.write (reportOf block w' paths)

/-- The batch goes on after a path of which the line is taken. -/
theorem exists_turn (h : (w.output.write (reportOf block w [p])).1 = .ok ()) :
    ∃ result w', Turn block w p result w' := by
  cases hrun : runIn w (processFile block p) with | mk result w₁
  have hout := output_of_processFile hrun
  have hworld : worldAfter block w [p] = w₁ := worldAfter_cons hrun []
  cases result with
  | ok outcome =>
      refine ⟨.ok outcome, w₁, fun _ _ => runFrom_cons_ok hrun _ _, account_cons hrun,
        fun paths _ => ?_, fun paths => ?_⟩
      · rw [worldAfter_cons hrun]
      · rw [← List.singleton_append, reportOf_append, reportOf_singleton_ok hrun, hworld, hout]
        rfl
  | error failure =>
      rw [reportOf_singleton_error hrun] at h
      -- the line changes the output alone, which no path behind `p` looks at
      obtain ⟨haccount, hafter⟩ := forall_and.mp
        (account_withOutput block w₁ (w.output.write (failureLine p failure)).2)
      refine ⟨.error failure, w₁.withOutput (w.output.write (failureLine p failure)).2,
        fun _ _ => ?_, fun paths => ?_, fun paths _ => ?_, fun paths => ?_⟩
      · rw [← hout] at h ⊢
        exact runFrom_cons_reported hrun (runIn_report_taken h) _ _
      · rw [haccount, account_cons hrun]
      · rw [hafter, worldAfter_cons hrun]
        rfl
      · rw [← List.singleton_append, reportOf_append, reportOf_singleton_error hrun, hworld,
          reportOf_withOutput, Sink.write_append_of_taken h]
        rfl

end turn

/-! ### Runs -/

/-- **A batch whose report is taken comes to its account.** -/
theorem runFrom_taken {paths : List Path}
    (h : (w.output.write (reportOf block w paths)).1 = .ok ()) (summary : Summary) :
    runIn w (runFrom block summary paths) = (.ok (summary.tally (account block w paths)),
      (worldAfter block w paths).withOutput (w.output.write (reportOf block w paths)).2) := by
  induction paths generalizing w summary with
  | nil =>
      show (_, w) = (_, w.withOutput (w.output.write []).2)
      rw [Sink.write_nil]
      rfl
  | cons p paths ih =>
      have hline : (w.output.write (reportOf block w [p])).1 = .ok () := by
        rw [← List.singleton_append, reportOf_append] at h
        exact Sink.taken_of_append h
      obtain ⟨result, w', turn⟩ := exists_turn hline
      rw [turn.write] at h ⊢
      rw [turn.run, ih h, turn.account, turn.world, Summary.tally_cons]

/-- What a batch without a limit to its report comes to. -/
def settled (block : Block) (fs : FileSystem) (paths : List Path) : Summary × World :=
  (Summary.empty.tally (account block (World.of fs .unlimited) paths),
    (worldAfter block (World.of fs .unlimited) paths).withOutput
      (Sink.unlimited.write (reportOf block (World.of fs .unlimited) paths)).2)

theorem batch_eq_settled (block : Block) (fs : FileSystem) (paths : List Path) :
    batch block fs paths = (.ok (settled block fs paths).1, (settled block fs paths).2) :=
  runFrom_taken (w := World.of fs .unlimited) rfl .empty

/-! ### Accounting and isolation -/

/-- The verdicts on a list of paths are those of treating each path in the world the paths ahead of
it lead to. The summary counts each verdict once, and the report has a line for each failure, in the
order of the list. -/
structure Accounted (block : Block) (fs : FileSystem) (paths : List Path) (verdicts : List Verdict)
    (summary : Summary) (w : World) : Prop where
  verdict : ∀ k, verdicts[k]? = paths[k]?.map fun p =>
    (p, (runIn (batch block fs (paths.take k)).2 (processFile block p)).1)
  inserted : summary.inserted = verdicts.countP Verdict.isInserted
  alreadyMarked : summary.alreadyMarked = verdicts.countP Verdict.isMarked
  failed : summary.failed = (failures verdicts).map Prod.fst
  total : summary.total = paths.length
  in_order : summary.failed.Sublist paths
  report : w.output.taken = reported (failures verdicts)

/-- A batch with a path `p` more than the batch `rest`, behind the paths of the batch `first`: the
files and the other counts are the same, and the failure and its line stand behind those of
`first`. -/
structure OneMore (p : Path) (failure : Failure) (first rest whole : Summary × World) : Prop where
  files : whole.2.files = rest.2.files
  inserted : whole.1.inserted = rest.1.inserted
  alreadyMarked : whole.1.alreadyMarked = rest.1.alreadyMarked
  failed : ∃ later, rest.1.failed = first.1.failed ++ later ∧
    whole.1.failed = first.1.failed ++ p :: later
  report : ∃ later, rest.2.output.taken = first.2.output.taken ++ later ∧
    whole.2.output.taken = first.2.output.taken ++ failureLine p failure ++ later

theorem accounted (block : Block) (fs : FileSystem) (paths : List Path) :
    Accounted block fs paths (account block (World.of fs .unlimited) paths)
      (settled block fs paths).1 (settled block fs paths).2 where
  verdict k := by
    rw [account_getElem?]
    simp only [batch_eq_settled, settled, (confined_processFile _ block).runIn_withOutput]
  inserted := Summary.inserted_tally _
  alreadyMarked := Summary.alreadyMarked_tally _
  failed := Summary.failed_tally _
  total := by
    have hpaths := map_fst_account block (World.of fs .unlimited) paths
    have hlength := congrArg List.length hpaths
    rw [List.length_map] at hlength
    rw [settled, Summary.total_tally, hlength]
    exact Nat.zero_add _
  in_order := by
    rw [settled, Summary.failed_tally]
    have := failures_sublist (account block (World.of fs .unlimited) paths)
    rwa [map_fst_account] at this
  report := rfl

theorem oneMore {xs ys : List Path} {e : FileError}
    (h : (worldAfter block (World.of fs .unlimited) xs).files.contents p = .error e) :
    OneMore p ⟨[.read p], .file e⟩ (settled block fs xs) (settled block fs (xs ++ ys))
      (settled block fs (xs ++ p :: ys)) := by
  unfold settled
  generalize World.of fs .unlimited = w at h ⊢
  have hp := runIn_unreadable h block
  -- reading `p` leaves the files to the paths behind it as they were
  have hsame : ((worldAfter block w xs).after (worldAfter block w xs).files).files =
      (worldAfter block w xs).files := rfl
  obtain ⟨haccount, hfiles⟩ := account_congr block hsame ys
  have hrest := account_append block w xs ys
  have hwhole : account block w (xs ++ p :: ys) = account block w xs ++
      (p, .error ⟨[.read p], .file e⟩) :: account block (worldAfter block w xs) ys := by
    rw [account_append, account_cons hp, haccount]
  refine ⟨?_, ?_, ?_, ?_, ?_⟩
  · show (worldAfter block w (xs ++ p :: ys)).files = (worldAfter block w (xs ++ ys)).files
    rw [worldAfter_append, worldAfter_append, worldAfter_cons hp, hfiles]
  · rw [Summary.inserted_tally, Summary.inserted_tally, hrest, hwhole, List.countP_append,
      List.countP_append, List.countP_cons_of_neg (by simp [Verdict.isInserted])]
  · rw [Summary.alreadyMarked_tally, Summary.alreadyMarked_tally, hrest, hwhole,
      List.countP_append, List.countP_append, List.countP_cons_of_neg (by simp [Verdict.isMarked])]
  · refine ⟨(failures (account block (worldAfter block w xs) ys)).map Prod.fst, ?_, ?_⟩
    · rw [Summary.failed_tally, Summary.failed_tally, hrest, failures_append, List.map_append]
    · rw [Summary.failed_tally, Summary.failed_tally, hwhole, failures_append, failures_cons_error,
        List.map_append, List.map_cons]
  · refine ⟨reportOf block (worldAfter block w xs) ys, reportOf_append w xs ys, ?_⟩
    show reportOf block w (xs ++ p :: ys) = reportOf block w xs ++ _ ++ _
    rw [reportOf, hwhole, failures_append, reported_append, failures_cons_error, List.append_assoc]
    rfl

/-- **A batch accounts for every path and isolates the failing ones.** Every path is counted once,
every failure reported once and in order; and a path that cannot be read when its turn comes changes
nothing for the others. -/
theorem batch_isolates_failures (block : Block) (fs : FileSystem) :
    (∀ paths, ∃ verdicts summary w, batch block fs paths = (.ok summary, w) ∧
      Accounted block fs paths verdicts summary w) ∧
    ∀ xs p ys e, (batch block fs xs).2.files.contents p = .error e →
      ∃ first rest whole : Summary × World, batch block fs xs = (.ok first.1, first.2) ∧
        batch block fs (xs ++ ys) = (.ok rest.1, rest.2) ∧
        batch block fs (xs ++ p :: ys) = (.ok whole.1, whole.2) ∧
        OneMore p ⟨[.read p], .file e⟩ first rest whole :=
  ⟨fun paths => ⟨_, _, _, batch_eq_settled block fs paths, accounted block fs paths⟩,
    fun xs p ys e h => ⟨_, _, _, batch_eq_settled .., batch_eq_settled .., batch_eq_settled ..,
      oneMore (by
        rw [batch_eq_settled] at h
        exact h)⟩⟩

/-- A missing file between two spellings of one source file. -/
theorem batch_isolates_failures_missing :
    (batch Block.short oneSource [shortSpelling]).2.files.contents (.ofString "b.py") =
        .error (.refused .notFound) ∧
      ∃ first rest whole : Summary × World,
        batch Block.short oneSource [shortSpelling] = (.ok first.1, first.2) ∧
        batch Block.short oneSource [shortSpelling, .ofString "./a.py"] = (.ok rest.1, rest.2) ∧
        batch Block.short oneSource [shortSpelling, .ofString "b.py", .ofString "./a.py"] =
          (.ok whole.1, whole.2) ∧
        OneMore (.ofString "b.py") ⟨[.read (.ofString "b.py")], .file (.refused .notFound)⟩
          first rest whole := by
  have h : (batch Block.short oneSource [shortSpelling]).2.files.contents (.ofString "b.py") =
      .error (.refused .notFound) := by decide +kernel
  exact ⟨h, (batch_isolates_failures Block.short oneSource).2 [shortSpelling] (.ofString "b.py")
    [.ofString "./a.py"] _ h⟩

end Batch
end StubInsertion
