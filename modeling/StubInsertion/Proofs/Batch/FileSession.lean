import StubInsertion.Proofs.Batch.Order
import StubInsertion.Source.Session

/-! # Sessions on a file

Blocks that are put into one file, one after the other, and the session that plans with the same
blocks on the file's data.

* **Room.** If a new file fits beside the file, every run does to the file what the session does to
  the text (`processFile_follows`, `worldWith_follows`).
* **No room.** If not, or if the file cannot be read, no run changes anything: a run that does not
  fail has found the marker, which then is in the text of the session as well (`processFile_idle`).
* **Sessions.** So the file follows the session until a run fails, and is as it was at first from
  then on (`fileSession_follows`).  The session does not know of the failure and goes on without the
  file (`session_goes_on`). -/

namespace StubInsertion

namespace FileSystem

/-- The file in a slot has this mode and these data, and all else is as it was. -/
structure Edited (fs fs' : FileSystem) (s : Slot) (mode : Mode) (data : Bytes) : Prop where
  root : fs'.root = fs.root
  here : fs'.here = fs.here
  directory : ∀ i, fs.isDirectory i = true → fs'.node? i = fs.node? i
  file : fs'.Shows s (.file mode data)
  others : ∀ x, x ≠ s → fs.SameAt fs' x

variable {fs fs' fs'' : FileSystem} {s : Slot} {mode : Mode} {data data' : Bytes}

theorem Shows.edited (h : fs.Shows s (.file mode data)) : fs.Edited fs s mode data :=
  ⟨rfl, rfl, fun _ _ => rfl, h, fun x _ => .refl fs x⟩

theorem Edited.trans (h : fs.Edited fs' s mode data) (h' : fs'.Edited fs'' s mode data') :
    fs.Edited fs'' s mode data' where
  root := h'.root.trans h.root
  here := h'.here.trans h.here
  directory i hi := by
    have hi' : fs'.isDirectory i = true := by
      rwa [FileSystem.isDirectory, h.directory i hi]
    rw [h'.directory i hi', h.directory i hi]
  file := h'.file
  others x hx := (h.others x hx).trans (h'.others x hx)

theorem Rewritten.edited (h : fs.Rewritten fs' s (.file mode data)) :
    fs.Edited fs' s mode data :=
  ⟨h.root, h.here, h.directory, h.entry.shows, h.others⟩

end FileSystem

namespace Batch

open FileSystem

variable {block : Block} {blocks : List Block} {p : Path} {s : Slot} {mode : Mode}
  {data text : Bytes} {w : World}

/-! ### Sessions -/

/-- Put some blocks into a file, one after the other. Each run is kept with the world after it. -/
def fileSession (p : Path) (w : World) (blocks : List Block) :
    List (Except Failure FileOutcome × World) :=
  w.runs (processFile · p) blocks

/-- The world after some blocks. -/
def worldWith (p : Path) (w : World) (blocks : List Block) : World :=
  w.through (processFile · p) blocks

/-- Plans with some blocks. -/
def plans (blocks : List Block) : List Source.Step := blocks.map fun block => .plan (.ok block)

/-- No run has failed. -/
def unbroken (runs : List (Except Failure FileOutcome × World)) : Bool := runs.all fun r => r.1.isOk

theorem worldWith_cons {w' : World} {result : Except Failure FileOutcome}
    (h : runIn w (processFile block p) = (result, w')) (blocks : List Block) :
    worldWith p w (block :: blocks) = worldWith p w' blocks :=
  World.through_cons (processFile · p) h blocks

theorem fileSession_getElem? (p : Path) (w : World) (blocks : List Block) (k : Nat) :
    (fileSession p w blocks)[k]? =
      blocks[k]?.map fun block => runIn (worldWith p w (blocks.take k)) (processFile block p) :=
  w.runs_getElem? _ blocks k

theorem session_plans_getElem? (text : Bytes) (blocks : List Block) (k : Nat) :
    (Source.session text (plans blocks))[k]? = blocks[k]?.map fun block =>
      (Source.Step.plan (.ok block)).run (Source.textAfter text (plans (blocks.take k))) := by
  rw [Source.session_getElem?]
  unfold plans
  rw [List.getElem?_map, Option.map_map, List.map_take]
  rfl

/-- The outcome of a run is the answer of a session. -/
inductive Agrees : FileOutcome → Source.Answer → Prop
  | inserted (line : Nat) (contents : Bytes) :
      Agrees (.inserted line) (.planned (.insert line contents))
  | alreadyMarked : Agrees .alreadyMarked (.planned .alreadyMarked)

/-! ### Files with room beside them -/

/-- A run does to the file what a step does to its text. -/
theorem processFile_follows (hr : w.files.Regular p s mode text) (hf : Fits p s) (block : Block) :
    let step := (Source.Step.plan (.ok block)).run text
    ∃ outcome w', runIn w (processFile block p) = (.ok outcome, w') ∧ Agrees outcome step.1 ∧
      w'.files.Regular p s mode step.2 ∧ w.files.Edited w'.files s mode step.2 := by
  simp only [Source.Step.run]
  cases hplan : Source.plan text block with
  | alreadyMarked =>
      obtain ⟨w', hrun, hw'⟩ := processFile_marked hr.contents hplan
      refine ⟨_, w', hrun, .alreadyMarked, ?_⟩
      rw [hw'.files]
      exact ⟨hr, hr.shows.edited⟩
  | insert line contents =>
      obtain ⟨w', hrun, hw'⟩ := processFile_inserted hr hplan hf
      refine ⟨_, w', hrun, .inserted line contents, ?_⟩
      rw [hw'.files]
      have hreached := (Reached.refl block w.files).add List.not_mem_nil hr.shows hplan
      have hdead := (hr.target.occupied hr.plain).1
      have hedited := (rewritten_add hdead mode contents).edited
      exact ⟨hreached.regular_of_shows hr hedited.file, hedited⟩

/-- The invariant of a session on a file: the file is still regular, has nothing beside it and holds
the text of the session. -/
theorem worldWith_follows (hr : w.files.Regular p s mode text) (hf : Fits p s)
    (blocks : List Block) :
    let text' := Source.textAfter text (plans blocks)
    (worldWith p w blocks).files.Regular p s mode text' ∧
      w.files.Edited (worldWith p w blocks).files s mode text' := by
  induction blocks generalizing w text with
  | nil => exact ⟨hr, hr.shows.edited⟩
  | cons block blocks ih =>
      obtain ⟨outcome, w', hrun, -, hr', hedited⟩ := processFile_follows hr hf block
      obtain ⟨hregular, hrest⟩ := ih hr'
      rw [worldWith_cons hrun]
      exact ⟨hregular, hedited.trans hrest⟩

/-! ### Files without -/

/-- The path cannot be read, or names a file beside which there is no room for a new one. -/
def Stuck (fs : FileSystem) (p : Path) (data : Bytes) : Prop :=
  (∃ e, fs.contents p = .error e) ∨ ∃ s mode, fs.Regular p s mode data ∧ ¬ Fits p s

/-- A run changes nothing, and if it does not fail it has found the marker. -/
theorem processFile_idle (h : Stuck w.files p data) (block : Block) :
    ∃ result w', runIn w (processFile block p) = (result, w') ∧ w'.files = w.files ∧
      ∀ outcome, result = .ok outcome →
        outcome = .alreadyMarked ∧ Source.isMarked data block.mark = true := by
  obtain ⟨e, he⟩ | ⟨s, mode, hr, hf⟩ := h
  · exact ⟨_, _, runIn_unreadable he block, rfl, fun _ h => by cases h⟩
  · cases hplan : Source.plan data block with
    | alreadyMarked =>
        obtain ⟨w', hrun, hw'⟩ := processFile_marked hr.contents hplan
        refine ⟨_, w', hrun, hw'.files, fun outcome h => ?_⟩
        cases h
        exact ⟨rfl, Source.plan_eq_alreadyMarked_iff.mp hplan⟩
    | insert line contents =>
        obtain ⟨failure, w', hrun, hw'⟩ := processFile_stuck hr hplan hf
        exact ⟨_, w', hrun, hw'.files, fun _ h => by cases h⟩

theorem files_worldWith (h : Stuck w.files p data) (blocks : List Block) :
    (worldWith p w blocks).files = w.files := by
  induction blocks generalizing w with
  | nil => rfl
  | cons block blocks ih =>
      obtain ⟨result, w', hrun, hfiles, -⟩ := processFile_idle h block
      rw [worldWith_cons hrun]
      exact (ih (hfiles ▸ h)).trans hfiles

/-- As long as no run fails, the session finds every marker and leaves its text alone. -/
theorem textAfter_of_unbroken (h : Stuck w.files p data)
    (hok : unbroken (fileSession p w blocks) = true) :
    Source.textAfter data (plans blocks) = data := by
  induction blocks generalizing w with
  | nil => rfl
  | cons block blocks ih =>
      obtain ⟨result, w', hrun, hfiles, hmarked⟩ := processFile_idle h block
      rw [fileSession, World.runs, hrun, unbroken, List.all_cons, Bool.and_eq_true] at hok
      cases result with
      | error failure => cases hok.1
      | ok outcome =>
          have hstep := Source.Step.run_plan_of_isMarked (hmarked outcome rfl).2
          have hrest := ih (w := w') (hfiles ▸ h) hok.2
          rw [plans, List.map_cons, Source.textAfter, List.foldl_cons, hstep]
          exact hrest

/-! ### Following a session -/

/-- A run on the file follows a step of the session: `start` are the files at the start of the
session, `before` those before the run, and `ok` says that no run has failed so far. -/
structure Follows (start before : FileSystem) (s : Slot) (mode : Mode) (ok : Bool)
    (run : Except Failure FileOutcome × World) (step : Source.Answer × Bytes) : Prop where
  agrees : ∀ outcome, run.1 = .ok outcome → Agrees outcome step.1
  unchanged : ∀ failure, run.1 = .error failure → run.2.files = before
  edited : ok = true → start.Edited run.2.files s mode step.2
  halted : ok = false → run.2.files = start

theorem follows_of_fits (hr : w.files.Regular p s mode data) (hf : Fits p s)
    (blocks : List Block) (block : Block) (k : Nat) :
    Follows w.files (worldWith p w (blocks.take k)).files s mode
      (unbroken (fileSession p w (blocks.take (k + 1))))
      (runIn (worldWith p w (blocks.take k)) (processFile block p))
      ((Source.Step.plan (.ok block)).run
        (Source.textAfter data (plans (blocks.take k)))) := by
  have hok (blocks : List Block) : unbroken (fileSession p w blocks) = true := by
    rw [unbroken, List.all_eq_true]
    intro run hmem
    obtain ⟨j, hj⟩ := List.mem_iff_getElem?.mp hmem
    rw [fileSession_getElem?, Option.map_eq_some_iff] at hj
    obtain ⟨b, -, rfl⟩ := hj
    obtain ⟨outcome, w', hrun, -⟩ := processFile_follows (worldWith_follows hr hf _).1 hf b
    rw [hrun]
    rfl
  obtain ⟨hregular, hedited⟩ := worldWith_follows hr hf (blocks.take k)
  obtain ⟨outcome, w', hrun, hagrees, -, hstep⟩ := processFile_follows hregular hf block
  rw [hrun, hok]
  refine ⟨?_, ?_, fun _ => hedited.trans hstep, ?_⟩
  · intro _ h
    cases h
    exact hagrees
  · intro _ h
    cases h
  · intro h
    cases h

theorem follows_of_stuck (h : Stuck w.files p data) (hshows : w.files.Shows s (.file mode data))
    {k : Nat} (hk : blocks[k]? = some block) :
    Follows w.files (worldWith p w (blocks.take k)).files s mode
      (unbroken (fileSession p w (blocks.take (k + 1))))
      (runIn (worldWith p w (blocks.take k)) (processFile block p))
      ((Source.Step.plan (.ok block)).run
        (Source.textAfter data (plans (blocks.take k)))) := by
  have hbefore := files_worldWith h (blocks.take k)
  obtain ⟨result, w', hrun, hfiles, hmarked⟩ := processFile_idle (hbefore ▸ h) block
  rw [hrun]
  refine ⟨?_, fun _ _ => hfiles, ?_, fun _ => hfiles.trans hbefore⟩
  · -- the session keeps the markers that the file had at first
    intro outcome hresult
    obtain ⟨rfl, hmark⟩ := hmarked outcome hresult
    rw [Source.Step.run_plan_of_isMarked (Source.isMarked_textAfter hmark _)]
    exact .alreadyMarked
  · intro hok
    have htext := textAfter_of_unbroken h hok
    rw [List.take_add_one, hk, Option.toList_some, plans, List.map_append, Source.textAfter,
      List.foldl_append] at htext
    have hstep : ((Source.Step.plan (.ok block)).run
        (Source.textAfter data (plans (blocks.take k)))).2 = data := htext
    rw [hstep]
    show w.files.Edited w'.files s mode data
    rw [hfiles, hbefore]
    exact hshows.edited

/-- **A file follows the session until a run fails.** Every outcome is the session's answer, as long
as no run has failed the file holds the session's text and all else is as it was, and from the first
failure on the files are those from the start. -/
theorem fileSession_follows {i : NodeId} (hp : w.files.occupant? p = some i)
    (hi : w.files.node? i = some (.file mode data)) (hs : w.files.occupant? p.stagedPath = none)
    (hb : w.files.occupant? p.backupPath = none) (blocks : List Block) :
    ∃ s slash, w.files.entry p = .ok (.slot s slash) ∧ ∀ k < blocks.length,
      ∃ run step, (fileSession p w blocks)[k]? = some run ∧
        (Source.session data (plans blocks))[k]? = some step ∧
        Follows w.files (worldWith p w (blocks.take k)).files s mode
          (unbroken ((fileSession p w blocks).take (k + 1))) run step := by
  obtain ⟨s, slash, hentry, hshows⟩ : ∃ s slash, w.files.entry p = .ok (.slot s slash) ∧
      w.files.Shows s (.file mode data) := by
    unfold FileSystem.occupant? at hp
    split at hp
    · rename_i s slash hentry
      exact ⟨s, slash, hentry, i, hp, hi⟩
    · cases hp
  refine ⟨s, slash, hentry, fun k hlt => ?_⟩
  have hk : blocks[k]? = some blocks[k] := List.getElem?_eq_getElem hlt
  refine ⟨_, _, by rw [fileSession_getElem?, hk]; rfl, by rw [session_plans_getElem?, hk]; rfl, ?_⟩
  have htake := w.runs_take (processFile · p) blocks (k + 1)
  rw [fileSession, htake]
  cases hc : w.files.contents p with
  | error e => exact follows_of_stuck (.inl ⟨e, hc⟩) hshows hk
  | ok bytes =>
      obtain ⟨t, -, hr⟩ := exists_regular hc hp hi hs hb
      cases hentry.symm.trans hr.entry
      by_cases hf : Fits p s
      · exact follows_of_fits hr hf blocks _ k
      · exact follows_of_stuck (.inr ⟨s, mode, hr, hf⟩) hshows hk

/-- The letter `N` on a line of its own. -/
def otherBlock : Block := ⟨"N", "N\n", by decide +kernel, by decide +kernel, by decide +kernel⟩

/-- Two blocks for one source file. -/
theorem fileSession_follows_source :
    let w := World.of oneSource .unlimited
    let blocks := [Block.short, otherBlock]
    oneSource.occupant? shortSpelling = some 5 ∧
      oneSource.node? 5 = some (.file 0o644 (utf8 "x = 1\n")) ∧
      oneSource.occupant? shortSpelling.stagedPath = none ∧
      oneSource.occupant? shortSpelling.backupPath = none ∧
      ∃ s slash, oneSource.entry shortSpelling = .ok (.slot s slash) ∧ ∀ k < 2,
        ∃ run step, (fileSession shortSpelling w blocks)[k]? = some run ∧
          (Source.session (utf8 "x = 1\n") (plans blocks))[k]? = some step ∧
          Follows oneSource (worldWith shortSpelling w (blocks.take k)).files s 0o644
            (unbroken ((fileSession shortSpelling w blocks).take (k + 1))) run step := by
  intro w blocks
  have hp : oneSource.occupant? shortSpelling = some 5 := by decide +kernel
  have hi : oneSource.node? 5 = some (.file 0o644 (utf8 "x = 1\n")) := by decide +kernel
  have hs : oneSource.occupant? shortSpelling.stagedPath = none := by decide +kernel
  have hb : oneSource.occupant? shortSpelling.backupPath = none := by decide +kernel
  exact ⟨hp, hi, hs, hb, fileSession_follows (w := w) hp hi hs hb blocks⟩

/-- A name beside which the name of a new file fits, but not that of the old one. -/
def longName : Path := ⟨List.replicate 254 0x61⟩

/-- A marked source file under that name. -/
def longNamed : FileSystem := FileSystem.initial.add ⟨4, longName.bytes⟩ (.file 0o644 (utf8 "M\n"))

/-- **A session goes on when a run has failed**: the first block does not get into the file, and the
second run finds its marker there without the text of the session. -/
theorem session_goes_on :
    longNamed.occupant? longName = some 5 ∧
      longNamed.node? 5 = some (.file 0o644 (utf8 "M\n")) ∧
      longNamed.occupant? longName.stagedPath = none ∧
      longNamed.occupant? longName.backupPath = none ∧
      let runs := fileSession longName (World.of longNamed .unlimited) [otherBlock, Block.short]
      let steps := Source.session (utf8 "M\n") (plans [otherBlock, Block.short])
      (runs.map fun run => (run.1, run.2.files.contents longName)) =
          [(.error ⟨[.rename longName longName.backupPath], .file (.refused .nameTooLong)⟩,
              .ok (utf8 "M\n")),
            (.ok .alreadyMarked, .ok (utf8 "M\n"))] ∧
        steps = [(.planned (.insert 1 (utf8 "N\nM\n")), utf8 "N\nM\n"),
          (.planned .alreadyMarked, utf8 "N\nM\n")] :=
  ⟨by decide +kernel, by decide +kernel, by decide +kernel, by decide +kernel, by decide +kernel,
    by decide +kernel⟩

end Batch
end StubInsertion
