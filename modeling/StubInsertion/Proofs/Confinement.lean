import Mathlib.Order.Defs.Unbundled
import StubInsertion.Config.Loading
import StubInsertion.Batch
import StubInsertion.Proofs.Worlds

/-! # Confinement to files

Most of the program works on files alone.  `Confined R x` says so of a run of `x`: what it answers,
the files it passes and the files it leaves are settled by the files it starts from, it neither
reads nor writes an output, and `R` relates the files at the start to all files that it passes or
leaves.

* **Calls.** `confined_look`, `confined_change` and `confined_opened`, and `Confined.bind` for
  sequences.
* **Programs.** `confined_processFile`: a file is treated without a word.  `confined_loadBlock`: a
  block is loaded without any change.
* **Worlds.** A confined run does the same in all worlds with the same files
  (`Confined.runIn_withOutput`, `Confined.runIn_congr`). -/

namespace StubInsertion

variable {α β : Type} {R : FileSystem → FileSystem → Prop}

/-- A run of `x` works on files alone and stays within `R`. -/
def Confined (R : FileSystem → FileSystem → Prop) (x : StateM World α) : Prop :=
  ∀ fs, ∃ result fs' states, R fs fs' ∧ (∀ fs'' ∈ states, R fs fs'') ∧
    ∀ past output errors, x.run ⟨fs, past, output, errors⟩ =
      (result, ⟨fs', states ++ past, output, errors⟩)

/-- No bound on what a run does to files. -/
def Anywhere : FileSystem → FileSystem → Prop := fun _ _ => True

instance : IsTrans FileSystem Anywhere := ⟨fun _ _ _ _ _ => trivial⟩

instance : Std.Refl Anywhere := ⟨fun _ => trivial⟩

/-! ### Calls and sequences -/

theorem confined_pure [Std.Refl R] (a : α) : Confined R (pure a : StateM World α) :=
  fun fs => ⟨a, fs, [], Std.Refl.refl fs, by simp, fun _ _ _ => rfl⟩

/-- One step after another; the files that both pass are related to the first ones through those in
between. -/
theorem Confined.bind [IsTrans FileSystem R] {x : StateM World α} {f : α → StateM World β}
    (hx : Confined R x) (hf : ∀ a, Confined R (f a)) : Confined R (x >>= f) := by
  intro fs
  obtain ⟨a, fs₁, states₁, hR₁, hstates₁, hrun₁⟩ := hx fs
  obtain ⟨b, fs₂, states₂, hR₂, hstates₂, hrun₂⟩ := hf a fs₁
  refine ⟨b, fs₂, states₂ ++ states₁, IsTrans.trans _ _ _ hR₁ hR₂, ?_, ?_⟩
  · intro fs'' hmem
    rcases List.mem_append.mp hmem with hmem | hmem
    · exact IsTrans.trans _ _ _ hR₁ (hstates₂ fs'' hmem)
    · exact hstates₁ fs'' hmem
  · intro past output errors
    show (f (x.run _).1).run (x.run _).2 = _
    rw [hrun₁, List.append_assoc]
    exact hrun₂ ..

theorem confined_look [Std.Refl R] (f : FileSystem → Except FileError α) :
    Confined R (World.look f) :=
  fun fs => ⟨f fs, fs, [fs], Std.Refl.refl fs, by simp [Std.Refl.refl], fun _ _ _ => rfl⟩

theorem confined_change (f : FileSystem → Except FileError FileSystem) :
    Confined Anywhere (World.change f) := by
  intro fs
  cases h : f fs with
  | ok fs' =>
      exact ⟨.ok (), fs', [fs'], trivial, fun _ _ => trivial, fun _ _ _ => World.change_ok h⟩
  | error e =>
      exact ⟨.error e, fs, [fs], trivial, fun _ _ => trivial, fun _ _ _ => World.change_error h⟩

theorem confined_opened (f : FileSystem → Except FileError (NodeId × FileSystem)) :
    Confined Anywhere (World.opened f) := by
  intro fs
  cases h : f fs with
  | ok r =>
      exact ⟨.ok r.1, r.2, [r.2], trivial, fun _ _ => trivial, fun _ _ _ => World.opened_ok h⟩
  | error e =>
      exact ⟨.error e, fs, [fs], trivial, fun _ _ => trivial, fun _ _ _ => World.opened_error h⟩

/-! ### Programs that may fail -/

section failing

variable [Std.Refl R]

theorem confined_makeBlock (during : List Activity) (marker text : String) :
    Confined R (makeBlock during marker text : ExceptT Failure (StateM World) Block).run := by
  unfold makeBlock
  cases Block.make marker text with
  | ok block => exact confined_pure _
  | error reason => exact confined_pure _

variable [IsTrans FileSystem R]

theorem confined_attempt (activity : Activity) {call : StateM World (Except FileError α)}
    (h : Confined R call) : Confined R (attempt activity call).run := by
  refine h.bind fun answer => ?_
  cases answer with
  | ok a => exact confined_pure _
  | error e => exact confined_pure _

theorem Confined.andThen {x : ExceptT Failure (StateM World) α}
    {f : α → ExceptT Failure (StateM World) β} (hx : Confined R x.run)
    (hf : ∀ a, Confined R (f a).run) : Confined R (x >>= f).run := by
  show Confined R (x.run >>= ExceptT.bindCont f)
  refine hx.bind fun answer => ?_
  cases answer with
  | ok a => exact hf a
  | error e => exact confined_pure _

theorem confined_readText (activity : Activity) (p : Path) :
    Confined R (readText activity p : ExceptT Failure (StateM World) String).run := by
  refine (confined_attempt activity (confined_look _)).andThen fun bytes => ?_
  cases Utf8.toString? bytes with
  | some text => exact confined_pure _
  | none => exact confined_pure _

theorem confined_load (words : Toml.Wording) (p : Path) :
    Confined R (Config.load words p : ExceptT Failure (StateM World) Config).run := by
  refine (confined_readText _ p).andThen fun text => ?_
  cases Config.parse words text with
  | ok config => exact confined_pure _
  | error diagnostic => exact confined_pure _

theorem confined_block (config : Config) (base : Path) :
    Confined R (config.block base : ExceptT Failure (StateM World) Block).run := by
  unfold Config.block
  cases config.blockFile with
  | none => exact confined_makeBlock _ _ _
  | some file => exact (confined_readText _ _).andThen fun text => confined_makeBlock _ _ _

/-- **A block is loaded without any change to a file**: of the relation it is asked only that
nothing done is within it. -/
theorem confined_loadBlock (words : Toml.Wording) (config : Option Path) :
    Confined R (loadBlock words config : ExceptT Failure (StateM World) Block).run := by
  cases config with
  | none => exact confined_pure _
  | some p =>
      refine (confined_load words p).andThen fun config => ?_
      exact (confined_block config _).bind fun answer => confined_pure _

end failing

/-! ### Files -/

section files

variable (p : Path)

theorem confined_stage (handle : FileCalls.Handle (StateM World)) (contents : Bytes) (mode : Mode) :
    Confined Anywhere (Replacement.stage p handle contents mode).run := by
  have hrest : Confined Anywhere (do
      attempt (.sync p) (FileCalls.sync handle)
      attempt (.setPermissions p) (FileCalls.setMode p mode) :
        ExceptT Failure (StateM World) Unit).run :=
    (confined_attempt _ (confined_look _)).andThen fun _ => confined_attempt _ (confined_change _)
  unfold Replacement.stage
  dsimp only
  split
  · exact hrest
  · exact (confined_attempt _ (confined_change _)).andThen fun _ => hrest

theorem confined_swap :
    Confined Anywhere (Replacement.swap p : ExceptT Failure (StateM World) Unit).run := by
  refine (confined_attempt _ (confined_change _)).andThen fun _ => ?_
  refine (confined_change _).bind fun answer => ?_
  cases answer with
  | ok _ => exact confined_pure _
  | error e => exact (confined_change _).bind fun _ => confined_pure _

theorem confined_discarding {body : ExceptT Failure (StateM World) Unit}
    (h : Confined Anywhere body.run) : Confined Anywhere (Replacement.discarding p body).run := by
  refine h.bind fun answer => ?_
  cases answer with
  | ok _ => exact confined_pure _
  | error e => exact (confined_change _).bind fun _ => confined_pure _

theorem confined_replaceFile (contents : Bytes) :
    Confined Anywhere
      (Replacement.replaceFile p contents : ExceptT Failure (StateM World) Unit).run := by
  refine (confined_attempt _ (confined_look _)).andThen fun mode => ?_
  refine (confined_attempt _ (confined_opened _)).andThen fun handle => ?_
  refine (confined_discarding _ ?_).andThen fun _ => confined_attempt _ (confined_change _)
  exact (confined_stage _ handle contents mode).andThen fun _ => confined_swap p

/-- **A file is treated without a word.** -/
theorem confined_processFile (block : Block) :
    Confined Anywhere
      (Batch.processFile block p : ExceptT Failure (StateM World) FileOutcome).run := by
  refine (confined_attempt _ (confined_look _)).andThen fun text => ?_
  cases Source.plan text block with
  | alreadyMarked => exact confined_pure _
  | insert line contents => exact (confined_replaceFile p contents).andThen fun _ => confined_pure _

end files

/-! ### Worlds with the same files -/

/-- The world with another output. -/
def World.withOutput (w : World) (output : Sink) : World := { w with output }

section worlds

variable {x : ExceptT Failure (StateM World) α}

/-- **A confined run leaves the outputs alone**, and does the same whatever they are. -/
theorem Confined.runIn_withOutput (h : Confined R x.run) (w : World) (output : Sink) :
    runIn (w.withOutput output) x = ((runIn w x).1, (runIn w x).2.withOutput output) := by
  obtain ⟨result, fs, states, -, -, hrun⟩ := h w.files
  have hw : runIn w x = (result, ⟨fs, states ++ w.past, w.output, w.errors⟩) := hrun ..
  rw [hw]
  exact hrun ..

theorem Confined.leaves (h : Confined R x.run) (w : World) :
    w.Leaves (runIn w x).2.files (runIn w x).2 := by
  obtain ⟨result, fs, states, -, -, hrun⟩ := h w.files
  have hw : runIn w x = (result, ⟨fs, states ++ w.past, w.output, w.errors⟩) := hrun ..
  rw [hw]
  exact ⟨rfl, rfl, rfl⟩

/-- **A confined run depends on the files alone.** -/
theorem Confined.runIn_congr (h : Confined R x.run) {w w' : World} (hw : w.files = w'.files) :
    (runIn w x).1 = (runIn w' x).1 ∧ (runIn w x).2.files = (runIn w' x).2.files := by
  obtain ⟨result, fs, states, -, -, hrun⟩ := h w.files
  have h₁ : runIn w x = (result, ⟨fs, states ++ w.past, w.output, w.errors⟩) := hrun ..
  have h₂ : runIn w' x = (result, ⟨fs, states ++ w'.past, w'.output, w'.errors⟩) := by
    rw [hw] at hrun
    exact hrun ..
  rw [h₁, h₂]
  exact ⟨rfl, rfl⟩

/-- Where nothing may be changed, nothing is, at any time. -/
theorem Confined.unchanged (h : Confined Eq x.run) (w : World) :
    ∃ states, (∀ fs ∈ states, fs = w.files) ∧
      (runIn w x).2 = { w with past := states ++ w.past } := by
  obtain ⟨result, fs, states, hfs, hstates, hrun⟩ := h w.files
  have hw : runIn w x = (result, ⟨fs, states ++ w.past, w.output, w.errors⟩) := hrun ..
  refine ⟨states, fun fs'' hmem => (hstates fs'' hmem).symm, ?_⟩
  rw [hw, hfs]

end worlds

end StubInsertion
