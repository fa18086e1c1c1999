import StubInsertion.Failure
import StubInsertion.Files.FileSystem

/-!
# Calls

The program asks its surroundings for three things: calls on files, output and error output.
Everything above this module is written for any monad that offers them, so the same definitions run
on the real files of a machine and on a file system that is a value.

* **Files.** `FileCalls`: one method for each call of the operating system.
* **Console.** `Console`: writing to standard output, which can fail, and to standard error.
* **Failures.** `attempt` turns the error of a call into a failure.

The log is left out. Its lines carry the time and go to standard error as well, as many as the
reader of the log asks for: by default a warning for each file that cannot be treated, each new file
that cannot be removed again and each old file that cannot be moved back. What stands on standard
error here is what the program says there apart from its log.
-/

namespace StubInsertion

/-- A monad that offers the calls on files. -/
class FileCalls (m : Type → Type) where
  /-- a file that is open for writing -/
  Handle : Type
  /-- the permissions of what a path names, links followed -/
  status : Path → m (Except FileError Mode)
  /-- all bytes of what a path names, links followed -/
  contents : Path → m (Except FileError Bytes)
  /-- open a file for writing, links followed; it is emptied or made -/
  create : Path → m (Except FileError Handle)
  /-- write bytes to an open file -/
  write : Handle → Bytes → m (Except FileError Unit)
  /-- wait until an open file is on the disk -/
  sync : Handle → m (Except FileError Unit)
  /-- set the permissions of what a path names, links followed -/
  setMode : Path → Mode → m (Except FileError Unit)
  /-- give an entry another name, in the place of what is there -/
  rename : Path → Path → m (Except FileError Unit)
  /-- remove an entry that is no directory -/
  unlink : Path → m (Except FileError Unit)

/-- A monad that offers output. -/
class Console (m : Type → Type) where
  /-- write bytes to standard output -/
  print : Bytes → m (Except FileError Unit)
  /-- write bytes to standard error, where the lines of the log may stand between them -/
  complain : Bytes → m Unit

variable {m : Type → Type} [Monad m]

/-- A call that belongs to an activity: its error becomes a failure of the activity. -/
def attempt {α : Type} (activity : Activity) (call : m (Except FileError α)) :
    ExceptT Failure m α := ExceptT.mk do
  match ← call with
  | .ok a => return .ok a
  | .error e => return .error ⟨[activity], .file e⟩

/-- The text of a file, which has to be UTF-8. -/
def readText [FileCalls m] (activity : Activity) (p : Path) : ExceptT Failure m String := do
  match Utf8.toString? (← attempt activity (FileCalls.contents p)) with
  | some s => return s
  | none => throw ⟨[activity], .file .notUtf8⟩

end StubInsertion
