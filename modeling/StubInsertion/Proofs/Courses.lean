import StubInsertion.Proofs.Worlds

/-! # Courses of runs

What holds of the files while a program runs, whichever of its calls fail.  `Course P x I Q E` says:
from files with `P`, a run of `x` leaves files with `I` after every call; in the end `Q` holds of the
answer and the files, or the run has failed and `E` holds.

* **Calls.** `course_look`, `course_change` and `course_opened` make a course of one call.
* **Sequences.** `Course.bind` puts courses one after the other; the states on the way are those of
  both (`Passes.trans`). -/

namespace StubInsertion

variable {α β : Type} {P : FileSystem → Prop} {I E E' : FileSystem → Prop}
  {Q : α → FileSystem → Prop} {R : β → FileSystem → Prop} {w w' w'' : World}

/-! ### States on the way -/

/-- All files that a run from `w` to `w'` leaves on the way have the property. -/
def World.Passes (w : World) (I : FileSystem → Prop) (w' : World) : Prop :=
  ∃ states, w'.past = states ++ w.past ∧ ∀ fs ∈ states, I fs

theorem World.passes_after (w : World) {files : FileSystem} (h : I files) :
    w.Passes I (w.after files) := ⟨[files], rfl, by simpa using h⟩

theorem World.Passes.trans (h : w.Passes I w') (h' : w'.Passes I w'') : w.Passes I w'' := by
  obtain ⟨states, hpast, hI⟩ := h
  obtain ⟨states', hpast', hI'⟩ := h'
  refine ⟨states' ++ states, by rw [hpast', hpast, List.append_assoc], fun fs hfs => ?_⟩
  rcases List.mem_append.mp hfs with hfs | hfs
  · exact hI' fs hfs
  · exact hI fs hfs

/-! ### Courses -/

/-- How a run ends. -/
def Ends (Q : α → FileSystem → Prop) (E : FileSystem → Prop) : Except Failure α → FileSystem → Prop
  | .ok a, fs => Q a fs
  | .error _, fs => E fs

/-- From files with `P` every run goes through files with `I` and ends with `Q`, or fails with
`E`. -/
def Course (P : FileSystem → Prop) (x : ExceptT Failure (StateM World) α) (I : FileSystem → Prop)
    (Q : α → FileSystem → Prop) (E : FileSystem → Prop) : Prop :=
  ∀ w, P w.files → ∃ result w', runIn w x = (result, w') ∧ w.Passes I w' ∧ Ends Q E result w'.files

/-- One course after another. -/
theorem Course.bind {x : ExceptT Failure (StateM World) α}
    {f : α → ExceptT Failure (StateM World) β} (hx : Course P x I Q E)
    (hf : ∀ a, Course (Q a) (f a) I R E) : Course P (x >>= f) I R E := by
  intro w hw
  obtain ⟨result, w', hrun, hpass, hend⟩ := hx w hw
  cases result with
  | error e => exact ⟨.error e, w', runIn_bind_error hrun f, hpass, hend⟩
  | ok a =>
      obtain ⟨result, w'', hrun', hpass', hend'⟩ := hf a w' hend
      exact ⟨result, w'', (runIn_bind_ok hrun f).trans hrun', hpass.trans hpass', hend'⟩

/-- A course may ask for more and promise less. -/
theorem Course.weaken {x : ExceptT Failure (StateM World) α} {P' : FileSystem → Prop}
    {Q' : α → FileSystem → Prop} (hx : Course P x I Q E) (hP : ∀ fs, P' fs → P fs)
    (hQ : ∀ a fs, Q a fs → Q' a fs) (hE : ∀ fs, E fs → E' fs) : Course P' x I Q' E' := by
  intro w hw
  obtain ⟨result, w', hrun, hpass, hend⟩ := hx w (hP _ hw)
  refine ⟨result, w', hrun, hpass, ?_⟩
  cases result with
  | error e => exact hE _ hend
  | ok a => exact hQ a _ hend

/-- A course from each of the files is one from all of them. -/
theorem course_of_each {x : ExceptT Failure (StateM World) α}
    (h : ∀ fs, P fs → Course (· = fs) x I Q E) : Course P x I Q E := fun w hw => h _ hw w rfl

/-! ### Calls -/

/-- A call that only looks at the files. -/
theorem course_look (activity : Activity) {f : FileSystem → Except FileError α}
    (hI : ∀ fs, P fs → I fs) (hok : ∀ fs a, P fs → f fs = .ok a → Q a fs)
    (herror : ∀ fs e, P fs → f fs = .error e → E fs) :
    Course P (attempt activity (World.look f)) I Q E := by
  intro w hw
  cases h : f w.files with
  | ok a =>
      exact ⟨_, _, runIn_attempt_ok activity (World.look_ok h), w.passes_after (hI _ hw),
        hok _ a hw h⟩
  | error e =>
      exact ⟨_, _, runIn_attempt_error activity (World.look_error h), w.passes_after (hI _ hw),
        herror _ e hw h⟩

/-- A call that changes the files, unless it fails. -/
theorem course_change (activity : Activity) {f : FileSystem → Except FileError FileSystem}
    {Q : Unit → FileSystem → Prop} (hI : ∀ fs, P fs → I fs)
    (hok : ∀ fs fs', P fs → f fs = .ok fs' → I fs' ∧ Q () fs')
    (herror : ∀ fs e, P fs → f fs = .error e → E fs) :
    Course P (attempt activity (World.change f)) I Q E := by
  intro w hw
  cases h : f w.files with
  | ok fs =>
      obtain ⟨hfs, hq⟩ := hok _ fs hw h
      exact ⟨_, _, runIn_attempt_ok activity (World.change_ok h), w.passes_after hfs, hq⟩
  | error e =>
      exact ⟨_, _, runIn_attempt_error activity (World.change_error h), w.passes_after (hI _ hw),
        herror _ e hw h⟩

/-- A call that opens a file, unless it fails. -/
theorem course_opened (activity : Activity)
    {f : FileSystem → Except FileError (NodeId × FileSystem)} {Q : NodeId → FileSystem → Prop}
    (hI : ∀ fs, P fs → I fs) (hok : ∀ fs i fs', P fs → f fs = .ok (i, fs') → I fs' ∧ Q i fs')
    (herror : ∀ fs e, P fs → f fs = .error e → E fs) :
    Course P (attempt activity (World.opened f)) I Q E := by
  intro w hw
  cases h : f w.files with
  | ok r =>
      obtain ⟨hfs, hq⟩ := hok _ r.1 r.2 hw h
      exact ⟨_, _, runIn_attempt_ok activity (World.opened_ok h), w.passes_after hfs, hq⟩
  | error e =>
      exact ⟨_, _, runIn_attempt_error activity (World.opened_error h), w.passes_after (hI _ hw),
        herror _ e hw h⟩

end StubInsertion
