import Mathlib.Algebra.GroupWithZero.Nat
import Mathlib.Tactic.SplitIfs
import StubInsertion.Batch
import StubInsertion.Proofs.Text.LineBreaks
import StubInsertion.Proofs.Worlds

/-! # How a file fails

A file that cannot be treated fails in one call, on the file or on one of its siblings, for a reason
that is worded on a single line.

* **Errors.** `Brief x` says that the error of `x`, if it has one, is worded on a single line; no
  call on a file system has another.
* **Runs.** `Gives G x` says that whatever a run of `x` gives satisfies `G`, and `Fails F x` that
  `x` fails with failures in `F` only; both are kept by sequences.
* **Files.** `Failure.Concerns p` describes the failures of a file (`fails_processFile`), and
  `count_reportLine` counts the line breaks of what is reported of them. -/

namespace StubInsertion

variable {α β : Type}

/-! ### Errors -/

/-- An error, if there is one, is worded on a single line. -/
def Brief (x : Except FileError α) : Prop := ∀ e, x = .error e → '\n' ∉ e.message.toList

@[simp] theorem brief_ok (a : α) : Brief (.ok a : Except FileError α) := fun _ h => nomatch h

@[simp] theorem brief_refused (reason : Errno) :
    Brief (.error (.refused reason) : Except FileError α) := by
  intro e h
  cases h
  cases reason <;> decide +kernel

@[simp] theorem brief_nulInPath : Brief (.error .nulInPath : Except FileError α) := by
  intro e h
  cases h
  decide +kernel

theorem Brief.bind {x : Except FileError α} {f : α → Except FileError β} (hx : Brief x)
    (hf : ∀ a, Brief (f a)) : Brief (x >>= f) := by
  intro e h
  cases x with
  | error e' =>
      cases h
      exact hx e rfl
  | ok a => exact hf a e h

theorem Brief.map {x : Except FileError α} (hx : Brief x) (g : α → β) : Brief (x.map g) := by
  intro e h
  cases x with
  | error e' =>
      cases h
      exact hx e rfl
  | ok a => cases h

theorem Brief.ite {c : Prop} [Decidable c] {x y : Except FileError α} (hx : Brief x)
    (hy : Brief y) : Brief (if c then x else y) := by
  split
  · exact hx
  · exact hy

theorem Path.brief_admit (p : Path) : Brief p.admit := by
  unfold Path.admit
  split_ifs <;> simp

namespace FileSystem

variable (fs : FileSystem) (p q : Path)

theorem brief_resolve : Brief (fs.resolve p) := by
  refine p.brief_admit.bind fun _ => ?_
  split <;> simp

theorem brief_entry : Brief (fs.entry p) := by
  refine p.brief_admit.bind fun _ => ?_
  split
  · simp
  · split
    · simp
    · simp
    · split <;> simp

theorem brief_occupant (slot : Slot) : Brief (fs.occupant slot) := by
  unfold occupant
  split
  · simp
  · split <;> simp

theorem brief_status : Brief (fs.status p) := by
  refine (fs.brief_resolve p).bind fun i => ?_
  split <;> simp

theorem brief_contents : Brief (fs.contents p) := by
  refine (fs.brief_resolve p).bind fun i => ?_
  split <;> simp

theorem brief_create : Brief (fs.create p) := by
  refine p.brief_admit.bind fun _ => ?_
  split
  · simp
  · simp
  · split <;> simp

theorem brief_write (i : NodeId) (data : Bytes) : Brief (fs.write i data) := by
  unfold write
  split <;> simp

theorem brief_sync (i : NodeId) : Brief (fs.sync i) := by
  unfold sync
  split <;> simp

theorem brief_setMode (mode : Mode) : Brief (fs.setMode p mode) := by
  refine (fs.brief_resolve p).bind fun i => ?_
  split <;> simp

theorem brief_rename : Brief (fs.rename p q) := by
  unfold rename
  refine .ite brief_nulInPath ?_
  refine (fs.brief_entry p).bind fun e => (fs.brief_entry q).bind fun e' => ?_
  cases e with
  | dots => exact brief_refused _
  | slot source slash =>
  cases e' with
  | dots => exact brief_refused _
  | slot target slash' =>
      refine (fs.brief_occupant source).bind fun i => ?_
      refine .ite (brief_refused _) (.ite (brief_refused _) (.ite (brief_refused _) ?_))
      refine .ite (brief_refused _) (.ite (brief_ok _) ?_)
      split <;> simp

theorem brief_unlink : Brief (fs.unlink p) := by
  refine (fs.brief_entry p).bind fun e => ?_
  cases e with
  | dots => simp
  | slot slot slash =>
      refine (fs.brief_occupant slot).bind fun i => ?_
      split_ifs <;> simp

end FileSystem

/-! ### Runs -/

/-- What a run gives satisfies `G`, whatever the world. -/
def Gives (G : α → Prop) (x : StateM World α) : Prop := ∀ w, G (x.run w).1

theorem gives_pure {G : α → Prop} {a : α} (h : G a) : Gives G (pure a : StateM World α) :=
  fun _ => h

theorem Gives.bind {G : α → Prop} {H : β → Prop} {x : StateM World α} {f : α → StateM World β}
    (hx : Gives G x) (hf : ∀ a, G a → Gives H (f a)) : Gives H (x >>= f) := fun w => hf _ (hx w) _

theorem brief_look {f : FileSystem → Except FileError α} (h : ∀ fs, Brief (f fs)) :
    Gives Brief (World.look f) := fun w => h w.files

theorem brief_change {f : FileSystem → Except FileError FileSystem} (h : ∀ fs, Brief (f fs)) :
    Gives Brief (World.change f) := by
  intro w
  rw [World.change_answer]
  exact (h w.files).map _

theorem brief_opened {f : FileSystem → Except FileError (NodeId × FileSystem)}
    (h : ∀ fs, Brief (f fs)) : Gives Brief (World.opened f) := by
  intro w
  rw [World.opened_answer]
  exact (h w.files).map _

/-- The failures of a program. -/
def Fails (F : Failure → Prop) (x : ExceptT Failure (StateM World) α) : Prop :=
  Gives (fun result => ∀ failure, result = .error failure → F failure) x.run

variable {F : Failure → Prop}

theorem fails_pure (a : α) : Fails F (pure a : ExceptT Failure (StateM World) α) :=
  fun _ _ h => nomatch h

theorem Fails.bind {x : ExceptT Failure (StateM World) α}
    {f : α → ExceptT Failure (StateM World) β} (hx : Fails F x) (hf : ∀ a, Fails F (f a)) :
    Fails F (x >>= f) := by
  show Gives _ (x.run >>= ExceptT.bindCont f)
  refine Gives.bind hx fun result hresult => ?_
  cases result with
  | ok a => exact hf a
  | error e =>
      refine gives_pure fun failure h => ?_
      cases h
      exact hresult e rfl

/-! ### Failures of a file -/

/-- The paths that the wording of an activity shows. -/
@[simp] def Activity.paths : Activity → List Path
  | .read p | .parse p | .configureFrom p | .readBlock p | .checkBlock p | .stat p | .create p
  | .write p | .sync p | .setPermissions p | .remove p => [p]
  | .rename p q => [p, q]
  | .writeReport => []

/-- The activity shows the path or siblings of it, and nothing else. -/
@[simp] def Activity.On (p : Path) (activity : Activity) : Prop :=
  ∀ q ∈ activity.paths, q = p ∨ q = p.stagedPath ∨ q = p.backupPath

/-- The failure is that of one call on a path or its siblings, worded on a single line. -/
def Failure.Concerns (p : Path) (failure : Failure) : Prop := ∃ activity e,
  failure = ⟨[activity], .file e⟩ ∧ activity.On p ∧ '\n' ∉ e.message.toList

theorem concerns_of_brief {p : Path} {activity : Activity} (ha : activity.On p) {e : FileError}
    (h : Brief (.error e : Except FileError α)) : Failure.Concerns p ⟨[activity], .file e⟩ :=
  ⟨activity, e, rfl, ha, h e rfl⟩

theorem fails_attempt {p : Path} {activity : Activity} (ha : activity.On p)
    {call : StateM World (Except FileError α)} (h : Gives Brief call) :
    Fails (Failure.Concerns p) (attempt activity call) := by
  refine Gives.bind h fun answer hanswer => ?_
  cases answer with
  | ok a => exact fails_pure a
  | error e =>
      refine gives_pure fun failure hf => ?_
      cases hf
      exact concerns_of_brief ha hanswer

section files

variable (p : Path)

theorem fails_stage (handle : NodeId) (contents : Bytes) (mode : Mode) :
    Fails (Failure.Concerns p)
      (Replacement.stage p.stagedPath handle contents mode :
        ExceptT Failure (StateM World) Unit) := by
  have hrest : Fails (Failure.Concerns p) (do
      attempt (.sync p.stagedPath) (FileCalls.sync handle)
      attempt (.setPermissions p.stagedPath) (FileCalls.setMode p.stagedPath mode) :
        ExceptT Failure (StateM World) Unit) := by
    refine (fails_attempt ?_ (brief_look fun fs => fs.brief_sync handle)).bind fun _ => ?_
    · simp
    · exact fails_attempt (by simp)
        (brief_change fun fs => fs.brief_setMode _ mode)
  unfold Replacement.stage
  dsimp only
  split
  · exact hrest
  · exact (fails_attempt (by simp)
      (brief_change fun fs => fs.brief_write handle contents)).bind fun _ => hrest

theorem fails_swap : Fails (Failure.Concerns p)
    (Replacement.swap p : ExceptT Failure (StateM World) Unit) := by
  have hbackup : (Activity.rename p p.backupPath).On p := by simp
  have hstaged : (Activity.rename p.stagedPath p).On p := by simp
  have hrename (q r : Path) : Gives Brief (FileCalls.rename q r : StateM World _) :=
    brief_change fun fs => fs.brief_rename q r
  refine (fails_attempt hbackup (hrename _ _)).bind fun _ => ?_
  refine (hrename p.stagedPath p).bind fun answer hanswer => ?_
  cases answer with
  | ok _ => exact fails_pure ()
  | error e =>
      refine (hrename p.backupPath p).bind fun _ _ => ?_
      refine gives_pure fun failure hf => ?_
      cases hf
      exact concerns_of_brief hstaged hanswer

theorem fails_discarding {body : ExceptT Failure (StateM World) Unit}
    (h : Fails F body) : Fails F (Replacement.discarding p body) := by
  refine Gives.bind h fun answer hanswer => ?_
  cases answer with
  | ok _ => exact fails_pure ()
  | error e =>
      refine Gives.bind (G := fun _ => True) (fun _ => trivial) fun _ _ => ?_
      exact gives_pure hanswer

theorem fails_replaceFile (contents : Bytes) : Fails (Failure.Concerns p)
    (Replacement.replaceFile p contents : ExceptT Failure (StateM World) Unit) := by
  refine (fails_attempt ?_ (brief_look fun fs => fs.brief_status p)).bind fun mode => ?_
  · simp
  refine (fails_attempt ?_ (brief_opened fun fs => fs.brief_create _)).bind fun handle => ?_
  · simp
  refine (fails_discarding _ ?_).bind fun _ => ?_
  · exact (fails_stage p handle contents mode).bind fun _ => fails_swap p
  · exact fails_attempt (by simp)
      (brief_change fun fs => fs.brief_unlink _)

/-- **A file fails in one call on it or on a sibling of it.** -/
theorem fails_processFile (block : Block) : Fails (Failure.Concerns p)
    (Batch.processFile block p : ExceptT Failure (StateM World) FileOutcome) := by
  refine (fails_attempt ?_ (brief_look fun fs => fs.brief_contents p)).bind fun text => ?_
  · simp
  cases Source.plan text block with
  | alreadyMarked => exact fails_pure _
  | insert line contents => exact (fails_replaceFile p contents).bind fun _ => fails_pure _

end files

/-! ### Line breaks in reports -/

/-- Words without a line break ahead of a path. -/
theorem count_words (words : String) (h : '\n' ∉ words.toList) (p : Path) :
    (words ++ p.display).toList.count '\n' = p.bytes.count newline := by
  rw [String.toList_append, List.count_append, List.count_eq_zero.mpr h, Nat.zero_add,
    p.count_display]

theorem Activity.count_text (activity : Activity) : activity.text.toList.count '\n' =
    (activity.paths.map fun q => q.bytes.count newline).sum := by
  cases activity with
  | writeReport => decide
  | rename p q =>
      show ("rename " ++ p.display ++ " to " ++ q.display).toList.count '\n' = _
      rw [String.append_assoc, String.toList_append, List.count_append,
        count_words "rename " (by decide), count_words " to " (by decide)]
      rfl
  | _ p => exact count_words _ (by decide) p

/-- The paths that the wording of a failure shows. -/
def Failure.paths (failure : Failure) : List Path := failure.during.flatMap Activity.paths

/-- A path has the newlines of its siblings. -/
theorem Activity.On.count_text {p : Path} {activity : Activity} (h : activity.On p) :
    activity.text.toList.count '\n' = activity.paths.length * p.bytes.count newline := by
  have heach : ∀ q ∈ activity.paths, q.bytes.count newline = p.bytes.count newline := by
    intro q hq
    rcases h q hq with rfl | rfl | rfl
    · rfl
    · exact List.count_append
    · exact List.count_append
  rw [activity.count_text, List.map_congr_left heach, List.map_const', List.sum_replicate_nat]

/-- **The path of a failing file is shown once more than its failure names it or its siblings**,
each time with all its line breaks, and there are no others. -/
theorem count_reportLine {p : Path} {failure : Failure} (h : failure.Concerns p) :
    (reportLine p failure.chain).toList.count '\n' =
      (1 + failure.paths.length) * p.bytes.count newline := by
  obtain ⟨activity, e, rfl, hon, hbrief⟩ := h
  have hpaths : (Failure.mk [activity] (.file e)).paths = activity.paths := List.append_nil _
  have hchain : Failure.joined (Failure.mk [activity] (.file e)).chain =
      activity.text ++ (": " ++ e.message) := String.append_assoc
  unfold reportLine
  rw [hchain, hpaths, String.append_assoc, String.toList_append, List.count_append,
    count_words "Unable to process source_file \"" (by decide), String.toList_append,
    List.count_append, String.toList_append, List.count_append, hon.count_text,
    String.toList_append, List.count_append, List.count_eq_zero.mpr hbrief]
  have hmark : "\": ".toList.count '\n' = 0 := by decide
  have hcolon : ": ".toList.count '\n' = 0 := by decide
  rw [hmark, hcolon, Nat.add_mul]
  omega

end StubInsertion
