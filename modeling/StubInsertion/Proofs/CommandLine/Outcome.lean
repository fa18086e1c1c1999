import StubInsertion.CommandLine.Program
import StubInsertion.Proofs.Batch.Account
import StubInsertion.Proofs.CommandLine.Grammar

/-! # How a run of the program ends

With an output that takes everything, a run ends in one of three ways, whatever the reader of TOML
says of a document that is none.

* **Idle.** Arguments that are not a list of files to process leave every file alone (`run_idle`).
* **Refused.** A configuration that fails ends the run with its failure on standard error and every
  file left alone (`run_refused`).
* **Carried out.** Otherwise the run is the batch of the file arguments with the configured block,
  and the files that fail do not show in the exit code (`run_carriedOut`). -/

namespace StubInsertion.Program

/-- A run of the program on some files, with an output that takes everything. -/
def ran (words : Toml.Wording) (args : List Bytes) (fs : FileSystem) : Exit × World :=
  (run words args : StateM World Exit).run (World.of fs .unlimited)

/-- What loading the block comes to. -/
def loaded (words : Toml.Wording) (config : Option Path) (fs : FileSystem) : Except Failure Block :=
  (runIn (World.of fs .unlimited) (loadBlock words config)).1

/-- The files are what they were, and have been at all times. -/
structure Untouched (fs : FileSystem) (w : World) : Prop where
  files : w.files = fs
  past : ∀ fs' ∈ w.past, fs' = fs

/-- The run ended with this failure before it changed anything; nothing but the failure stands on
standard error. -/
structure Refused (failure : Failure) (fs : FileSystem) (exit : Exit) (w : World) : Prop
    extends Untouched fs w where
  code : exit.code = 1
  output : w.output.taken = []
  errors : w.errors = utf8 failure.message ++ [newline]

/-- The run was a batch: its report and its files are those of the batch. -/
structure CarriedOut (block : Block) (files : List Path) (fs : FileSystem) (exit : Exit)
    (w : World) : Prop where
  code : exit.code = 0
  output : w.output.taken = (Batch.batch block fs files).2.output.taken
  files : w.files = (Batch.batch block fs files).2.files

variable {words : Toml.Wording} {args : List Bytes} {fs : FileSystem} {config : Option Path}
  {files : List Path}

/-! ### Requests -/

theorem ran_of_process (h : Request.parse args = some (.process config files)) :
    ran words args fs =
      (process words config files : StateM World Exit).run (World.of fs .unlimited) := by
  rw [ran, run, h]

/-- Nothing is done to files unless files are asked for. -/
theorem run_idle (h : ∀ config files, Request.parse args ≠ some (.process config files)) :
    Untouched fs (ran words args fs).2 := by
  rw [ran, run]
  cases hparse : Request.parse args with
  | none => exact ⟨rfl, fun _ hmem => absurd hmem List.not_mem_nil⟩
  | some request =>
      cases request with
      | help => exact ⟨rfl, fun _ hmem => absurd hmem List.not_mem_nil⟩
      | process config files => exact absurd hparse (h config files)

/-! ### Configurations -/

/-- Whether or not a block comes of it, loading adds to the past of a world at most. -/
theorem loadBlock_unchanged (words : Toml.Wording) (config : Option Path) (fs : FileSystem) :
    ∃ past, (∀ fs' ∈ past, fs' = fs) ∧ runIn (World.of fs .unlimited) (loadBlock words config) =
      (loaded words config fs, ⟨fs, past, .unlimited, []⟩) := by
  obtain ⟨past, hpast, hworld⟩ :=
    (confined_loadBlock (R := Eq) words config).unchanged (World.of fs .unlimited)
  exact ⟨past ++ [], by rwa [List.append_nil], Prod.ext rfl hworld⟩

/-- How a run ends once its work is done, or not. -/
def concluded : Except Failure Summary × World → Exit × World
  | (.ok _, w) => (.done, w)
  | (.error failure, w) =>
    (.failed, { w with errors := w.errors ++ (utf8 failure.message ++ [newline]) })

theorem process_run (words : Toml.Wording) (config : Option Path) (files : List Path) (w : World) :
    (process words config files : StateM World Exit).run w =
      concluded (runIn w (loadBlock words config >>= fun block => Batch.runBatch block files)) := by
  rw [process, StateT.run_bind]
  cases hrun : runIn w (loadBlock words config >>= fun block => Batch.runBatch block files) with
  | mk result w' =>
      rw [runIn] at hrun
      rw [hrun]
      cases result <;> rfl

/-- **A configuration that fails stops a run before the first file.** -/
theorem run_refused {failure : Failure}
    (hparse : Request.parse args = some (.process config files))
    (h : loaded words config fs = .error failure) :
    Refused failure fs (ran words args fs).1 (ran words args fs).2 := by
  obtain ⟨past, hpast, hload⟩ := loadBlock_unchanged words config fs
  rw [h] at hload
  rw [ran_of_process hparse, process_run, runIn_bind_error hload]
  exact ⟨⟨rfl, hpast⟩, rfl, rfl, rfl⟩

/-- **With a block, a run is a batch.** Loading leaves nothing but its calls behind, and no batch
depends on those. -/
theorem run_carriedOut {block : Block}
    (hparse : Request.parse args = some (.process config files))
    (h : loaded words config fs = .ok block) :
    CarriedOut block files fs (ran words args fs).1 (ran words args fs).2 := by
  obtain ⟨past, -, hload⟩ := loadBlock_unchanged words config fs
  rw [h] at hload
  generalize hw : (⟨fs, past, .unlimited, []⟩ : World) = w at hload
  have hstart : w.files = (World.of fs .unlimited).files := hw ▸ rfl
  have hroom : w.output = .unlimited := hw ▸ rfl
  obtain ⟨haccount, hfiles⟩ := Batch.account_congr block hstart files
  have hbatch : runIn w (Batch.runBatch block files) = _ :=
    Batch.runFrom_taken (by rw [hroom]; rfl) .empty
  rw [Batch.reportOf, haccount, hroom] at hbatch
  rw [ran_of_process hparse, process_run, runIn_bind_ok hload, hbatch]
  have hsettled := Batch.batch_eq_settled block fs files
  refine ⟨rfl, ?_, ?_⟩
  · rw [hsettled]
    rfl
  · rw [hsettled]
    exact hfiles

/-! ### Runs -/

/-- **The configuration gates every change, and files that fail do not change the exit code.**
Arguments that do not spell a request to process files touch nothing; those that do touch nothing if
the block cannot be loaded, and otherwise are the batch of the files they spell. -/
theorem run_outcome (words : Toml.Wording) (args : List Bytes) (fs : FileSystem) :
    ((∀ config files, Request.Spells args config files → files = []) →
      Untouched fs (ran words args fs).2) ∧
    ∀ config files, Request.Spells args config files → files ≠ [] →
      (∀ failure, loaded words config fs = .error failure →
        Refused failure fs (ran words args fs).1 (ran words args fs).2) ∧
      ∀ block, loaded words config fs = .ok block →
        CarriedOut block files fs (ran words args fs).1 (ran words args fs).2 := by
  constructor
  · intro h
    refine run_idle fun config files hparse => ?_
    obtain ⟨hs, hne⟩ := Request.parse_eq_process_iff.mp hparse
    exact hne (h config files hs)
  · intro config files hs hne
    have hparse := Request.parse_eq_process_iff.mpr ⟨hs, hne⟩
    exact ⟨fun _ => run_refused hparse, fun _ => run_carriedOut hparse⟩

/-- The source file, and a configuration with its block file. -/
def configuredSource : FileSystem :=
  (Batch.oneSource.add ⟨4, utf8 "c.toml"⟩ (.file 0o644 (utf8 "block_file = 'm.txt'\n"))).add
    ⟨4, utf8 "m.txt"⟩ (.file 0o644 (utf8 "# STATIC_IMPORT_MARK\n"))

/-- An unknown option, a configuration that is missing, and one that is there with a source file and
a missing file. -/
theorem run_outcome_configured :
    Untouched configuredSource (ran Toml.plainWording [utf8 "--nope"] configuredSource).2 ∧
    (∃ failure,
      loaded Toml.plainWording (some (.ofString "d.toml")) configuredSource = .error failure ∧
      Refused failure configuredSource
        (ran Toml.plainWording [utf8 "--config", utf8 "d.toml", utf8 "a.py"]
          configuredSource).1
        (ran Toml.plainWording [utf8 "--config", utf8 "d.toml", utf8 "a.py"]
          configuredSource).2) ∧
    ∃ block, loaded Toml.plainWording (some (.ofString "c.toml")) configuredSource = .ok block ∧
      CarriedOut block [.ofString "a.py", .ofString "b.py"] configuredSource
        (ran Toml.plainWording [utf8 "a.py", utf8 "--config", utf8 "c.toml", utf8 "b.py"]
          configuredSource).1
        (ran Toml.plainWording [utf8 "a.py", utf8 "--config", utf8 "c.toml", utf8 "b.py"]
          configuredSource).2 := by
  have hnope (config : Option Path) (files : List Path)
      (h : Request.Spells [utf8 "--nope"] config files) : files = [] := by
    by_contra hne
    have hparse := Request.parse_eq_process_iff.mpr ⟨h, hne⟩
    have hnone : Request.parse [utf8 "--nope"] = none := by decide +kernel
    rw [hnone] at hparse
    cases hparse
  have hmissing : Request.Spells [utf8 "--config", utf8 "d.toml", utf8 "a.py"]
      (some (.ofString "d.toml")) [.ofString "a.py"] :=
    .config (by decide) (by decide) (.file (by decide) (by decide) .nil)
  have hpresent : Request.Spells [utf8 "a.py", utf8 "--config", utf8 "c.toml", utf8 "b.py"]
      (some (.ofString "c.toml")) [.ofString "a.py", .ofString "b.py"] :=
    .file (by decide) (by decide)
      (.config (by decide) (by decide) (.file (by decide) (by decide) .nil))
  have hunreadable : loaded Toml.plainWording (some (.ofString "d.toml")) configuredSource =
      .error ⟨[.read (.ofString "d.toml")], .file (.refused .notFound)⟩ := by decide +kernel
  have hloads :
      (loaded Toml.plainWording (some (.ofString "c.toml")) configuredSource).isOk = true := by
    decide +kernel
  cases hload : loaded Toml.plainWording (some (.ofString "c.toml")) configuredSource with
  | error failure =>
      rw [hload] at hloads
      cases hloads
  | ok block =>
      exact ⟨(run_outcome _ _ configuredSource).1 hnope,
        ⟨_, hunreadable, ((run_outcome _ _ configuredSource).2 _ _ hmissing (by simp)).1 _
          hunreadable⟩,
        block, rfl, ((run_outcome _ _ configuredSource).2 _ _ hpresent (by simp)).2 _ hload⟩

end StubInsertion.Program
