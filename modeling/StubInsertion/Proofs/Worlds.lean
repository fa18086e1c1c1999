import StubInsertion.World

/-! # Runs in a world

What a program does in a world, call by call.

* **Calls.** A call that succeeds leaves the file system it gives, a call that fails leaves the one
  that was there (`look_ok`, `change_error` and so on).
* **Sequences.** A run goes on after a step that succeeds and ends with a step that fails
  (`runIn_bind_ok`, `runIn_bind_error`).
* **Lists.** An action is run on one element of a list after the other, whether or not it fails;
  `World.runs` keeps these runs and `World.through` the world in the end. -/

namespace StubInsertion

variable {α β : Type} {w w' : World}

namespace World

/-- The world after a call that leaves these files. -/
def after (w : World) (files : FileSystem) : World :=
  { w with files := files, past := files :: w.past }

/-! ### Calls -/

theorem look_ok {f : FileSystem → Except FileError α} {a : α} (h : f w.files = .ok a) :
    (look f).run w = (.ok a, w.after w.files) := by
  show (f w.files, w.after w.files) = _
  rw [h]

theorem look_error {f : FileSystem → Except FileError α} {e : FileError}
    (h : f w.files = .error e) : (look f).run w = (.error e, w.after w.files) := by
  show (f w.files, w.after w.files) = _
  rw [h]

theorem change_ok {f : FileSystem → Except FileError FileSystem} {files : FileSystem}
    (h : f w.files = .ok files) : (change f).run w = (.ok (), w.after files) := by
  unfold change StateT.run
  simp only [h]
  rfl

theorem change_error {f : FileSystem → Except FileError FileSystem} {e : FileError}
    (h : f w.files = .error e) : (change f).run w = (.error e, w.after w.files) := by
  unfold change StateT.run
  simp only [h]
  rfl

theorem opened_ok {f : FileSystem → Except FileError (NodeId × FileSystem)} {i : NodeId}
    {files : FileSystem} (h : f w.files = .ok (i, files)) :
    (opened f).run w = (.ok i, w.after files) := by
  unfold opened StateT.run
  simp only [h]
  rfl

theorem opened_error {f : FileSystem → Except FileError (NodeId × FileSystem)} {e : FileError}
    (h : f w.files = .error e) : (opened f).run w = (.error e, w.after w.files) := by
  unfold opened StateT.run
  simp only [h]
  rfl

theorem change_answer (f : FileSystem → Except FileError FileSystem) (w : World) :
    ((change f).run w).1 = (f w.files).map fun _ => () := by
  cases hf : f w.files with
  | ok files =>
      rw [change_ok hf]
      rfl
  | error e =>
      rw [change_error hf]
      rfl

theorem opened_answer (f : FileSystem → Except FileError (NodeId × FileSystem)) (w : World) :
    ((opened f).run w).1 = (f w.files).map Prod.fst := by
  cases hf : f w.files with
  | ok r =>
      rw [opened_ok hf]
      rfl
  | error e =>
      rw [opened_error hf]
      rfl

/-! ### Changes -/

/-- A run from `w` to `w'` has changed files at most, and leaves these. -/
structure Leaves (w : World) (files : FileSystem) (w' : World) : Prop where
  files : w'.files = files
  output : w'.output = w.output
  errors : w'.errors = w.errors

theorem Leaves.after {files : FileSystem} (h : w.Leaves files w') (files' : FileSystem) :
    w.Leaves files' (w'.after files') :=
  ⟨rfl, h.output, h.errors⟩

theorem Leaves.trans {w'' : World} {files files' : FileSystem} (h : w.Leaves files w')
    (h' : w'.Leaves files' w'') : w.Leaves files' w'' :=
  ⟨h'.files, h'.output.trans h.output, h'.errors.trans h.errors⟩

end World

/-! ### Sequences -/

section sequences

variable {x : ExceptT Failure (StateM World) α} {call : StateM World (Except FileError α)} {a : α}

theorem runIn_bind_ok (h : runIn w x = (.ok a, w'))
    (f : α → ExceptT Failure (StateM World) β) : runIn w (x >>= f) = runIn w' (f a) := by
  show ExceptT.bindCont f (runIn w x).1 (runIn w x).2 = _
  rw [h]
  rfl

theorem runIn_bind_error {e : Failure} (h : runIn w x = (.error e, w'))
    (f : α → ExceptT Failure (StateM World) β) : runIn w (x >>= f) = (.error e, w') := by
  show ExceptT.bindCont f (runIn w x).1 (runIn w x).2 = _
  rw [h]
  rfl

/-- A failure names the activity during which the call failed. -/
theorem runIn_attempt_error (activity : Activity) {e : FileError} (h : call.run w = (.error e, w')) :
    runIn w (attempt activity call) = (.error ⟨[activity], .file e⟩, w') := by
  unfold runIn attempt ExceptT.mk ExceptT.run StateT.run at *
  simp only [bind, StateT.bind, h]
  rfl

theorem runIn_attempt_ok (activity : Activity) (h : call.run w = (.ok a, w')) :
    runIn w (attempt activity call) = (.ok a, w') := by
  unfold runIn attempt ExceptT.mk ExceptT.run StateT.run at *
  simp only [bind, StateT.bind, h]
  rfl

end sequences

/-! ### Lists -/

namespace World

/-- The runs of an action on the elements of a list, each with the world after it. -/
def runs (w : World) (action : α → ExceptT Failure (StateM World) β) :
    List α → List (Except Failure β × World)
  | [] => []
  | a :: as =>
    let result := runIn w (action a)
    result :: result.2.runs action as

/-- The world after the runs of an action on the elements of a list. -/
def through (w : World) (action : α → ExceptT Failure (StateM World) β) (as : List α) : World :=
  as.foldl (fun w a => (runIn w (action a)).2) w

theorem through_cons (action : α → ExceptT Failure (StateM World) β) {a : α}
    {result : Except Failure β} (h : runIn w (action a) = (result, w')) (as : List α) :
    w.through action (a :: as) = w'.through action as := by
  rw [through, List.foldl_cons, h]
  rfl

theorem through_append (w : World) (action : α → ExceptT Failure (StateM World) β)
    (as bs : List α) : w.through action (as ++ bs) = (w.through action as).through action bs :=
  List.foldl_append

/-- Every run starts in the world that the runs ahead of it lead to. -/
theorem runs_getElem? (w : World) (action : α → ExceptT Failure (StateM World) β) (as : List α)
    (k : Nat) : (w.runs action as)[k]? =
      as[k]?.map fun a => runIn (w.through action (as.take k)) (action a) := by
  induction as generalizing w k with
  | nil => rfl
  | cons a as ih =>
      cases k with
      | zero => rfl
      | succ k => exact ih _ k

theorem runs_take (w : World) (action : α → ExceptT Failure (StateM World) β) (as : List α)
    (k : Nat) : (w.runs action as).take k = w.runs action (as.take k) := by
  induction as generalizing w k with
  | nil => cases k <;> rfl
  | cons a as ih =>
      cases k with
      | zero => rfl
      | succ k => exact congrArg (_ :: ·) (ih _ k)

end World

end StubInsertion
