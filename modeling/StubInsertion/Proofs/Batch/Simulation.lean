import StubInsertion.Proofs.Batch.Ledger
import StubInsertion.Proofs.Batch.Progress

/-! # A batch follows its ledger

For paths of which each one cannot be read or names a regular file with nothing beside it, a batch
with room for its report does what the ledger of these paths says (`runFrom_ledger`): the file system
is the one in which the slots of the ledger have the block, and the summary is the ledger's. -/

namespace StubInsertion

theorem Sink.write_of_no_limit {s : Sink} (h : s.room = none) (bytes : Bytes) :
    s.write bytes = (.ok (), { s with taken := s.taken ++ bytes }) := by
  obtain ⟨taken, room, refusal⟩ := s
  cases h
  rfl

/-- The world after some bytes have been printed. -/
def World.printed (w : World) (bytes : Bytes) : World :=
  { w with output.taken := w.output.taken ++ bytes }

theorem runIn_lift {α : Type} {x : ExceptT Failure (StateM World) α} {r : Except Failure α}
    {w w' : World} (h : runIn w x = (r, w')) :
    runIn w (ExceptT.lift (x.run : StateM World (Except Failure α))) = (.ok r, w') := by
  show (Except.ok (runIn w x).1, (runIn w x).2) = _
  rw [h]

namespace Batch

open FileSystem

variable {block : Block} {fs : FileSystem} {p : Path} {w w' : World}

/-! ### Steps -/

theorem runIn_report (hroom : w.output.room = none) (p : Path) (failure : Failure) :
    runIn w (report p failure) =
      (.ok (), w.printed (utf8 (reportLine p failure.chain) ++ [newline])) := by
  apply runIn_attempt_ok
  show ((w.output.write _).1, { w with output := (w.output.write _).2 }) = _
  rw [Sink.write_of_no_limit hroom]
  rfl

theorem runFrom_cons_ok {outcome : FileOutcome}
    (h : runIn w (processFile block p) = (.ok outcome, w')) (summary : Summary)
    (paths : List Path) :
    runIn w (runFrom block summary (p :: paths)) =
      runIn w' (runFrom block (summary.add p (.ok outcome)) paths) := by
  rw [runFrom, runIn_bind_ok (runIn_lift h)]

theorem runFrom_cons_reported {failure : Failure} {w'' : World}
    (h : runIn w (processFile block p) = (.error failure, w'))
    (hreport : runIn w' (report p failure) = (.ok (), w'')) (summary : Summary)
    (paths : List Path) :
    runIn w (runFrom block summary (p :: paths)) =
      runIn w'' (runFrom block (summary.add p (.error failure)) paths) := by
  rw [runFrom, runIn_bind_ok (runIn_lift h)]
  exact runIn_bind_ok hreport _

/-- A report that cannot be written ends the batch. -/
theorem runFrom_cons_unreported {failure failure' : Failure} {w'' : World}
    (h : runIn w (processFile block p) = (.error failure, w'))
    (hreport : runIn w' (report p failure) = (.error failure', w'')) (summary : Summary)
    (paths : List Path) :
    runIn w (runFrom block summary (p :: paths)) = (.error failure', w'') := by
  rw [runFrom, runIn_bind_ok (runIn_lift h)]
  exact runIn_bind_error hreport _

theorem runFrom_cons_error {failure : Failure}
    (h : runIn w (processFile block p) = (.error failure, w')) (hroom : w'.output.room = none)
    (summary : Summary) (paths : List Path) :
    runIn w (runFrom block summary (p :: paths)) =
      runIn (w'.printed (utf8 (reportLine p failure.chain) ++ [newline]))
        (runFrom block (summary.add p (.error failure)) paths) :=
  runFrom_cons_reported h (runIn_report hroom p failure) summary paths

/-! ### Listed paths -/

/-- The path cannot be read, or its last name is a regular file and there is nothing under the two
names that a replacement uses. -/
def Listed (fs : FileSystem) (p : Path) : Prop :=
  (∃ e, fs.contents p = .error e) ∨
    (∃ i mode data, fs.occupant? p = some i ∧ fs.node? i = some (.file mode data)) ∧
      fs.occupant? p.stagedPath = none ∧ fs.occupant? p.backupPath = none

/-- What the path stands for at first. -/
def itemOf (block : Block) (fs : FileSystem) (p : Path) : Item :=
  match fs.contents p, fs.entry p with
  | .ok data, .ok (.slot s _) =>
    match Source.plan data block with
    | .alreadyMarked => .marked
    | .insert .. => .unmarked s (decide (Fits p s))
  | _, _ => .unreadable

/-- What a listed path stands for, with the reason. -/
inductive Stands (block : Block) (fs : FileSystem) (p : Path) : Item → Prop
  | unreadable {e} : fs.contents p = .error e → Stands block fs p .unreadable
  | marked {s mode data} : fs.Regular p s mode data →
      Source.plan data block = .alreadyMarked → Stands block fs p .marked
  | unmarked {s mode data line contents} : fs.Regular p s mode data →
      Source.plan data block = .insert line contents →
      Stands block fs p (.unmarked s (decide (Fits p s)))

theorem Listed.stands (h : Listed fs p) (block : Block) : Stands block fs p (itemOf block fs p) := by
  unfold itemOf
  cases hc : fs.contents p with
  | error e => exact .unreadable hc
  | ok bytes =>
      obtain ⟨e, he⟩ | ⟨⟨i, mode, data, ho, hi⟩, hs, hb⟩ := h
      · rw [hc] at he
        cases he
      · obtain ⟨s, -, hr⟩ := exists_regular hc ho hi hs hb
        cases hc.symm.trans hr.contents
        rw [hr.entry]
        dsimp only
        cases hplan : Source.plan bytes block with
        | alreadyMarked => exact .marked hr hplan
        | insert line contents => exact .unmarked hr hplan

/-- A file that is marked by now is left alone. -/
theorem runFrom_passing {data : Bytes} (hc : w.files.contents p = .ok data)
    (hplan : Source.plan data block = .alreadyMarked) (hroom : w.output.room = none)
    (summary : Summary) :
    ∃ w', (∀ paths, runIn w (runFrom block summary (p :: paths)) =
          runIn w' (runFrom block (summary.add p (.ok .alreadyMarked)) paths)) ∧
      w'.files = w.files ∧ w'.output.room = none := by
  obtain ⟨w', hrun, hw'⟩ := processFile_marked hc hplan
  refine ⟨w', runFrom_cons_ok hrun summary, hw'.files, ?_⟩
  rw [hw'.output]
  exact hroom

/-- A failure that changes nothing is reported. -/
theorem runFrom_failing {failure : Failure} (h : runIn w (processFile block p) = (.error failure, w'))
    (hw' : w.Leaves w.files w') (hroom : w.output.room = none) (summary : Summary) :
    ∃ w'', (∀ paths, runIn w (runFrom block summary (p :: paths)) =
          runIn w'' (runFrom block (summary.add p (.error failure)) paths)) ∧
      w''.files = w.files ∧ w''.output.room = none := by
  have hroom' : w'.output.room = none := by
    rw [hw'.output]
    exact hroom
  exact ⟨_, runFrom_cons_error h hroom' summary, hw'.files, hroom'⟩

/-- **One path changes the file system as it changes the ledger.** -/
theorem runFrom_enter {l : Ledger} {item : Item} (hp : Stands block fs p item)
    (hw : Reached block fs w.files l.done) (hroom : w.output.room = none) :
    ∃ w', (∀ paths, runIn w (runFrom block l.summary (p :: paths)) =
          runIn w' (runFrom block (l.enter p item).summary paths)) ∧
      Reached block fs w'.files (l.enter p item).done ∧ w'.output.room = none ∧
      ((∀ s, item = .unmarked s true → s ∈ l.done) → w'.files = w.files) := by
  cases hp with
  | unreadable hc =>
      obtain ⟨e, he⟩ := hw.unreadable hc
      obtain ⟨failure, w1, hrun, hw1⟩ := processFile_unreadable he block
      obtain ⟨w', hnext, hfiles, hroom'⟩ := runFrom_failing hrun hw1 hroom l.summary
      exact ⟨w', hnext, hfiles ▸ hw, hroom', fun _ => hfiles⟩
  | @marked s mode data hr hplan =>
      obtain ⟨bytes, hc, hmarked⟩ : ∃ bytes, w.files.contents p = .ok bytes ∧
          Source.plan bytes block = .alreadyMarked := by
        by_cases hs : s ∈ l.done
        · obtain ⟨bytes, hr', hmarked⟩ := hw.regular_of_mem hr hs
          exact ⟨bytes, hr'.contents, hmarked⟩
        · exact ⟨data, (hw.regular_of_notMem hr hs).contents, hplan⟩
      obtain ⟨w', hnext, hfiles, hroom'⟩ := runFrom_passing hc hmarked hroom l.summary
      exact ⟨w', hnext, hfiles ▸ hw, hroom', fun _ => hfiles⟩
  | @unmarked s mode data line contents hr hplan =>
      unfold Ledger.enter
      dsimp only
      by_cases hs : s ∈ l.done
      · rw [if_pos hs]
        obtain ⟨bytes, hr', hmarked⟩ := hw.regular_of_mem hr hs
        obtain ⟨w', hnext, hfiles, hroom'⟩ := runFrom_passing hr'.contents hmarked hroom l.summary
        exact ⟨w', hnext, hfiles ▸ hw, hroom', fun _ => hfiles⟩
      · rw [if_neg hs]
        have hr' := hw.regular_of_notMem hr hs
        by_cases hf : Fits p s
        · rw [if_pos (decide_eq_true hf)]
          obtain ⟨w', hrun, hw'⟩ := processFile_inserted hr' hplan hf
          refine ⟨w', runFrom_cons_ok hrun l.summary, ?_, ?_, ?_⟩
          · rw [hw'.files]
            exact hw.add hs hr.shows hplan
          · rw [hw'.output]
            exact hroom
          · intro hfull
            exact absurd (hfull s (by rw [decide_eq_true hf])) hs
        · rw [if_neg (by simpa using hf)]
          obtain ⟨failure, w1, hrun, hw1⟩ := processFile_stuck hr' hplan hf
          obtain ⟨w', hnext, hfiles, hroom'⟩ := runFrom_failing hrun hw1 hroom l.summary
          exact ⟨w', hnext, hfiles ▸ hw, hroom', fun _ => hfiles⟩

/-- **A batch follows its ledger**, and changes nothing if all that it could insert is there. -/
theorem runFrom_ledger {paths : List Path} (hp : ∀ p ∈ paths, Listed fs p) {l : Ledger}
    (hw : Reached block fs w.files l.done) (hroom : w.output.room = none) :
    ∃ w', runIn w (runFrom block l.summary paths) =
        (.ok (l.run (itemOf block fs) paths).summary, w') ∧
      Reached block fs w'.files (l.run (itemOf block fs) paths).done ∧
      ((∀ p ∈ paths, ∀ s, itemOf block fs p = .unmarked s true → s ∈ l.done) →
        w'.files = w.files) := by
  -- the invariant that goes from path to path is that the ledger tells what has been done
  induction paths generalizing w l with
  | nil => exact ⟨w, rfl, hw, fun _ => rfl⟩
  | cons p paths ih =>
      rw [List.forall_mem_cons] at hp
      obtain ⟨w1, hstep, hw1, hroom1, hsame1⟩ := runFrom_enter (hp.1.stands block) hw hroom
      obtain ⟨w', hrun, hw', hsame⟩ := ih hp.2 hw1 hroom1
      refine ⟨w', (hstep paths).trans hrun, hw', ?_⟩
      intro hfull
      rw [List.forall_mem_cons] at hfull
      have hdone := l.done_enter p hfull.1
      rw [hsame (by rw [hdone]; exact hfull.2), hsame1 hfull.1]

end Batch
end StubInsertion
