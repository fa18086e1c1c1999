import StubInsertion.Calls

/-!
# Replacing a file

New contents go into a file beside the old one. Only when that file is complete, the old one is
moved aside and the new one takes its name. What is already there under the two names beside it is
not spared, and a path that goes through one of them may lead nowhere in the meantime.

* **Names.** `stagedPath` holds the new contents, `backupPath` the old file.
* **Stages.** `stage` completes the new file, `swap` exchanges the two; a failure in either removes
  the new file (`discarding`).
* **Replacement.** `replaceFile` is the whole sequence.
-/

namespace StubInsertion

/-- The name under which the new contents are completed. -/
def Path.stagedPath (p : Path) : Path := p.sibling (utf8 "~")

/-- The name under which the old file is kept while names are exchanged. -/
def Path.backupPath (p : Path) : Path := p.sibling (utf8 "~~")

namespace Replacement

variable {m : Type → Type} [Monad m] [FileCalls m]

/-- Complete the new file: its bytes, of which there may be none, and its permissions. -/
def stage (p : Path) (handle : FileCalls.Handle m) (contents : Bytes) (mode : Mode) :
    ExceptT Failure m Unit := do
  unless contents.isEmpty do
    attempt (.write p) (FileCalls.write handle contents)
  attempt (.sync p) (FileCalls.sync handle)
  attempt (.setPermissions p) (FileCalls.setMode p mode)

/-- Move the old file aside and give its name to the new one. If the second step fails, the old file
is moved back, as far as that is possible; if it is not, only the log says so. -/
def swap (p : Path) : ExceptT Failure m Unit := do
  attempt (.rename p p.backupPath) (FileCalls.rename p p.backupPath)
  ExceptT.mk do
    match ← FileCalls.rename p.stagedPath p with
    | .ok () => return .ok ()
    | .error e =>
      let _ ← FileCalls.rename p.backupPath p
      return .error ⟨[.rename p.stagedPath p], .file e⟩

/-- Do something and, if it fails, remove the file at `p`, as far as that is possible; if it is not,
only the log says so. -/
def discarding (p : Path) (body : ExceptT Failure m Unit) : ExceptT Failure m Unit := ExceptT.mk do
  match ← body.run with
  | .ok () => return .ok ()
  | .error failure =>
    let _ ← FileCalls.unlink p
    return .error failure

/-- Replace the contents of a file and keep its permissions. -/
def replaceFile (p : Path) (contents : Bytes) : ExceptT Failure m Unit := do
  let mode ← attempt (.stat p) (FileCalls.status p)
  let handle ← attempt (.create p.stagedPath) (FileCalls.create p.stagedPath)
  discarding p.stagedPath do
    stage p.stagedPath handle contents mode
    swap p
  attempt (.remove p.backupPath) (FileCalls.unlink p.backupPath)

end Replacement

end StubInsertion
