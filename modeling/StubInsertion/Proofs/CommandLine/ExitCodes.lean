import StubInsertion.Proofs.Batch.Cutoff
import StubInsertion.Proofs.CommandLine.Outcome

/-! # Exit codes

What a run ends with is settled by what its arguments ask for and by whether the output takes what
there is to say (`Ending`, `ending`).  Help, a report and a failure to load the block lead to the
codes 0 and 1, arguments that are rejected to the code 2.

The codes are stable (`Stable`) as long as the output takes the words for arguments that are
rejected (`stable_exitCode_iff`).  Help that cannot be shown is a failure like any other; arguments
that are rejected when nothing can be said end a run with a code that stands for neither
(`rejected_unheard`). -/

namespace StubInsertion

/-! ### Outputs -/

/-- The output takes all of these bytes. -/
def Sink.Takes (s : Sink) (bytes : Bytes) : Prop := (s.write bytes).1 = .ok ()

theorem Sink.takes_unlimited (bytes : Bytes) : Sink.unlimited.Takes bytes := rfl

theorem Sink.takes_full_iff {bytes : Bytes} : Sink.full.Takes bytes ↔ bytes = [] := by
  cases bytes <;> simp [Takes, write, full]

/-- What an output does not take, it refuses with an error. -/
theorem Sink.exists_refusal {s : Sink} {bytes : Bytes} (h : ¬ s.Takes bytes) :
    ∃ e, (s.write bytes).1 = .error e := by
  cases hw : (s.write bytes).1 with
  | ok _ => exact absurd hw h
  | error e => exact ⟨e, rfl⟩

namespace Program

/-- What is said of arguments that are rejected. -/
def usage : Bytes := utf8 ("Invalid argument(s).\n" ++ helpText ++ "\n")

theorem not_takes_usage : ¬ Sink.full.Takes usage := by
  have hwords : utf8 "Invalid argument(s).\n" ≠ [] := by decide
  rw [Sink.takes_full_iff, usage, utf8_append, utf8_append, List.append_assoc]
  exact List.append_ne_nil_of_left_ne_nil hwords _

/-- A run of the program on some files, with some output. -/
def ranWith (words : Toml.Wording) (output : Sink) (args : List Bytes) (fs : FileSystem) :
    Exit × World :=
  (run words args : StateM World Exit).run (World.of fs output)

/-- The exit code of a run. -/
def exitCode (words : Toml.Wording) (output : Sink) (args : List Bytes) (fs : FileSystem) : Nat :=
  (ranWith words output args fs).1.code

/-- How a run ends: by what the arguments ask for, and by what the output takes. -/
inductive Ending (words : Toml.Wording) (output : Sink) (args : List Bytes) (fs : FileSystem) :
    Exit → Prop
  | helped : Request.AsksHelp args → output.Takes (utf8 helpText) →
      Ending words output args fs .done
  | helpless : Request.AsksHelp args → ¬ output.Takes (utf8 helpText) →
      Ending words output args fs .failed
  | misused : Request.Rejected args → output.Takes usage → Ending words output args fs .misused
  | aborted : Request.Rejected args → ¬ output.Takes usage → Ending words output args fs .aborted
  | blockless {config files failure} : Request.Spells args config files → files ≠ [] →
      loaded words config fs = .error failure → Ending words output args fs .failed
  | reported {config files block} : Request.Spells args config files → files ≠ [] →
      loaded words config fs = .ok block → output.Takes (Batch.fullReport block fs files) →
      Ending words output args fs .done
  | unreported {config files block} : Request.Spells args config files → files ≠ [] →
      loaded words config fs = .ok block → ¬ output.Takes (Batch.fullReport block fs files) →
      Ending words output args fs .failed

/-- The exit code is 0, 1 or 2, and it is 2 exactly if the arguments are rejected. -/
def Stable (args : List Bytes) (code : Nat) : Prop :=
  (code = 0 ∨ code = 1 ∨ code = 2) ∧ (code = 2 ↔ Request.Rejected args)

variable {words : Toml.Wording} {output : Sink} {args : List Bytes} {fs : FileSystem}
  {config : Option Path} {files : List Path}

/-! ### Words -/

/-- Something is said, and how a run ends depends on whether the output takes it. -/
theorem exit_of_print (bytes : Bytes) {next : Except FileError Unit → StateM World Exit}
    {heard unheard : Exit} (hok : ∀ w, ((next (.ok ())).run w).1 = heard)
    (herror : ∀ e w, ((next (.error e)).run w).1 = unheard) (output : Sink) (fs : FileSystem) :
    let exit := (((Console.print bytes : StateM World (Except FileError Unit)) >>= next).run
      (World.of fs output)).1
    output.Takes bytes ∧ exit = heard ∨ ¬ output.Takes bytes ∧ exit = unheard := by
  intro exit
  have hexit : exit = ((next (output.write bytes).1).run
      ((World.of fs output).withOutput (output.write bytes).2)).1 := rfl
  by_cases ht : output.Takes bytes
  · have hw : (output.write bytes).1 = .ok () := ht
    rw [hw] at hexit
    exact .inl ⟨ht, hexit.trans (hok _)⟩
  · obtain ⟨e, hw⟩ := Sink.exists_refusal ht
    rw [hw] at hexit
    exact .inr ⟨ht, hexit.trans (herror e _)⟩

theorem ending_of_help (h : Request.AsksHelp args) :
    Ending words output args fs (ranWith words output args fs).1 := by
  have hshown : output.Takes (utf8 helpText) ∧ (ranWith words output args fs).1 = .done ∨
      ¬ output.Takes (utf8 helpText) ∧ (ranWith words output args fs).1 = .failed := by
    rw [ranWith, run, Request.parse_eq_help_iff.mpr h]
    exact exit_of_print _ (fun _ => rfl) (fun _ _ => rfl) output fs
  rcases hshown with ⟨ht, hexit⟩ | ⟨ht, hexit⟩
  · rw [hexit]
    exact .helped h ht
  · rw [hexit]
    exact .helpless h ht

theorem ending_of_rejected (h : Request.Rejected args) :
    Ending words output args fs (ranWith words output args fs).1 := by
  have hshown : output.Takes usage ∧ (ranWith words output args fs).1 = .misused ∨
      ¬ output.Takes usage ∧ (ranWith words output args fs).1 = .aborted := by
    rw [ranWith, run, Request.parse_eq_none_iff.mpr h]
    exact exit_of_print _ (fun _ => rfl) (fun _ _ => rfl) output fs
  rcases hshown with ⟨ht, hexit⟩ | ⟨ht, hexit⟩
  · rw [hexit]
    exact .misused h ht
  · rw [hexit]
    exact .aborted h ht

/-! ### Files -/

/-- The block is loaded without a word, whatever the output. -/
theorem loadBlock_quiet (words : Toml.Wording) (config : Option Path) (fs : FileSystem)
    (output : Sink) : ∃ w, w.files = fs ∧ w.output = output ∧
      runIn (World.of fs output) (loadBlock words config) = (loaded words config fs, w) := by
  obtain ⟨past, -, hload⟩ := loadBlock_unchanged words config fs
  have hconfined := confined_loadBlock (R := Eq) words config
  have hrun := hconfined.runIn_withOutput (World.of fs .unlimited) output
  rw [hload] at hrun
  exact ⟨_, rfl, rfl, hrun⟩

theorem ending_of_files (hs : Request.Spells args config files) (hne : files ≠ []) :
    Ending words output args fs (ranWith words output args fs).1 := by
  rw [ranWith, run, Request.parse_eq_process_iff.mpr ⟨hs, hne⟩]
  dsimp only
  rw [process_run]
  obtain ⟨w, hfiles, hout, hload⟩ := loadBlock_quiet words config fs output
  cases hblock : loaded words config fs with
  | error failure =>
      rw [hblock] at hload
      rw [runIn_bind_error hload]
      exact .blockless hs hne hblock
  | ok block =>
      rw [hblock] at hload
      rw [runIn_bind_ok hload]
      have hstart : w.files = (World.of fs .unlimited).files := hfiles
      have hreport : Batch.reportOf block w files = Batch.fullReport block fs files := by
        rw [Batch.fullReport_eq, Batch.reportOf, Batch.reportOf,
          (Batch.account_congr block hstart files).1]
      by_cases ht : output.Takes (Batch.fullReport block fs files)
      · have hw : (w.output.write (Batch.reportOf block w files)).1 = .ok () := by
          rw [hout, hreport]
          exact ht
        rw [Batch.runBatch, Batch.runFrom_taken hw]
        exact .reported hs hne hblock ht
      · obtain ⟨e, he⟩ := Sink.exists_refusal ht
        have hw : (w.output.write (Batch.reportOf block w files)).1 = .error e := by
          rw [hout, hreport]
          exact he
        obtain ⟨_, _, _, -, -, -, hrun⟩ := Batch.runFrom_refused hw .empty
        rw [Batch.runBatch, hrun]
        exact .unreported hs hne hblock ht

/-! ### Runs -/

/-- **How every run ends.** -/
theorem ending (words : Toml.Wording) (output : Sink) (args : List Bytes) (fs : FileSystem) :
    Ending words output args fs (ranWith words output args fs).1 := by
  by_cases hhelp : Request.AsksHelp args
  · exact ending_of_help hhelp
  · by_cases hfiles : ∃ config files, Request.Spells args config files ∧ files ≠ []
    · obtain ⟨config, files, hs, hne⟩ := hfiles
      exact ending_of_files hs hne
    · refine ending_of_rejected ⟨hhelp, fun config files hs => ?_⟩
      by_contra hne
      exact hfiles ⟨config, files, hs, hne⟩

theorem not_rejected_of_help (h : Request.AsksHelp args) : ¬ Request.Rejected args :=
  fun hr => hr.no_help h

theorem not_rejected_of_files (hs : Request.Spells args config files) (hne : files ≠ []) :
    ¬ Request.Rejected args := fun hr => hne (hr.no_files config files hs)

/-- Arguments that are rejected lead to two ends, all others to the other two. -/
theorem Ending.by_rejection {exit : Exit} (h : Ending words output args fs exit) :
    Request.Rejected args ∧ (exit = .misused ∧ output.Takes usage ∨
        exit = .aborted ∧ ¬ output.Takes usage) ∨
      ¬ Request.Rejected args ∧ (exit = .done ∨ exit = .failed) := by
  cases h with
  | helped hhelp _ => exact .inr ⟨not_rejected_of_help hhelp, .inl rfl⟩
  | helpless hhelp _ => exact .inr ⟨not_rejected_of_help hhelp, .inr rfl⟩
  | misused hr ht => exact .inl ⟨hr, .inl ⟨rfl, ht⟩⟩
  | aborted hr ht => exact .inl ⟨hr, .inr ⟨rfl, ht⟩⟩
  | blockless hs hne _ => exact .inr ⟨not_rejected_of_files hs hne, .inr rfl⟩
  | reported hs hne _ _ => exact .inr ⟨not_rejected_of_files hs hne, .inl rfl⟩
  | unreported hs hne _ _ => exact .inr ⟨not_rejected_of_files hs hne, .inr rfl⟩

theorem Ending.stable_iff {exit : Exit} (h : Ending words output args fs exit) :
    Stable args exit.code ↔ ¬ (Request.Rejected args ∧ ¬ output.Takes usage) := by
  rcases h.by_rejection with ⟨hr, ⟨rfl, ht⟩ | ⟨rfl, ht⟩⟩ | ⟨hno, rfl | rfl⟩
  · exact iff_of_true ⟨.inr (.inr rfl), iff_of_true rfl hr⟩ fun h => h.2 ht
  · exact iff_of_false (fun h => absurd h.1 (by decide)) fun h => h ⟨hr, ht⟩
  · exact iff_of_true ⟨.inl rfl, iff_of_false (by decide) hno⟩ fun h => hno h.1
  · exact iff_of_true ⟨.inr (.inl rfl), iff_of_false (by decide) hno⟩ fun h => hno h.1

/-- **The exit codes are stable as long as the output takes the words for rejected arguments.**
Every run ends as its arguments and its output say; and the code is 0, 1 or 2, and 2 for rejected
arguments only, unless arguments are rejected and the output does not take what there is to say of
them.  With an output that takes everything this is never so, with one that takes nothing it is so
for all arguments that are rejected. -/
theorem stable_exitCode_iff (words : Toml.Wording) (args : List Bytes) (fs : FileSystem) :
    (∀ output, Ending words output args fs (ranWith words output args fs).1 ∧
      (Stable args (exitCode words output args fs) ↔
        ¬ (Request.Rejected args ∧ ¬ output.Takes usage))) ∧
      Stable args (exitCode words .unlimited args fs) ∧
      (Stable args (exitCode words .full args fs) ↔ ¬ Request.Rejected args) := by
  have hstable (output : Sink) := (ending words output args fs).stable_iff
  refine ⟨fun output => ⟨ending words output args fs, hstable output⟩, ?_, ?_⟩
  · exact (hstable .unlimited).mpr fun h => h.2 (Sink.takes_unlimited usage)
  · rw [exitCode, hstable .full, and_iff_left not_takes_usage]

/-- An unknown option, with an output that takes nothing: the run ends with code 101. -/
theorem rejected_unheard :
    Request.Rejected [utf8 "--nope"] ∧
      exitCode Toml.plainWording .full [utf8 "--nope"] Batch.oneSource = 101 ∧
      ¬ Stable [utf8 "--nope"] (exitCode Toml.plainWording .full [utf8 "--nope"] Batch.oneSource) := by
  have hr : Request.Rejected [utf8 "--nope"] := Request.parse_eq_none_iff.mp (by decide +kernel)
  have hending := ending Toml.plainWording .full [utf8 "--nope"] Batch.oneSource
  refine ⟨hr, ?_, fun h => hending.stable_iff.mp h ⟨hr, not_takes_usage⟩⟩
  rcases hending.by_rejection with ⟨-, ⟨-, ht⟩ | ⟨hexit, -⟩⟩ | ⟨hno, -⟩
  · exact absurd ht not_takes_usage
  · rw [exitCode, hexit]
    rfl
  · exact absurd hr hno

end Program
end StubInsertion
