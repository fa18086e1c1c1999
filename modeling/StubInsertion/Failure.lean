import StubInsertion.Block.Basic
import StubInsertion.Files.Error
import StubInsertion.Files.Path
import StubInsertion.Toml.Diagnostic

/-!
# Failures

A failure is a cause with the activities during which it arose, the outermost first.

* **Activities.** `Activity.text` says what was being done.
* **Causes.** `Cause.text` says what went wrong.
* **Chains.** `Failure.chain` lists both, `Failure.message` is the chain on one line.
-/

namespace StubInsertion

/-- What was being done when something went wrong. -/
inductive Activity
  | read (path : Path)
  | parse (path : Path)
  | configureFrom (path : Path)
  | readBlock (path : Path)
  | checkBlock (path : Path)
  | stat (path : Path)
  | create (path : Path)
  | write (path : Path)
  | sync (path : Path)
  | setPermissions (path : Path)
  | rename (source target : Path)
  | remove (path : Path)
  | writeReport
  deriving DecidableEq, Repr

/-- The wording of an activity. -/
def Activity.text : Activity → String
  | .read p => s!"read {p.display}"
  | .parse p => s!"parse {p.display}"
  | .configureFrom p => s!"configure stub block from {p.display}"
  | .readBlock p => s!"read block file {p.display}"
  | .checkBlock p => s!"invalid block file {p.display}"
  | .stat p => s!"stat {p.display}"
  | .create p => s!"create {p.display}"
  | .write p => s!"write {p.display}"
  | .sync p => s!"sync {p.display}"
  | .setPermissions p => s!"set permissions on {p.display}"
  | .rename p q => s!"rename {p.display} to {q.display}"
  | .remove p => s!"remove {p.display}"
  | .writeReport => "write report"

/-- What went wrong. -/
inductive Cause
  | file (error : FileError)
  | block (reason : Block.Rejection)
  | configuration (fault : Toml.Fault)
  deriving DecidableEq, Repr

/-- The wording of a cause. -/
def Cause.text : Cause → String
  | .file e => e.message
  | .block r => r.message
  | .configuration f => f.message

/-- A cause and the activities during which it arose, the outermost first. -/
structure Failure where
  during : List Activity
  cause : Cause
  deriving DecidableEq, Repr

namespace Failure

/-- The parts of a failure's message, the outermost first. -/
def chain (f : Failure) : List String := f.during.map Activity.text ++ [f.cause.text]

/-- A chain on one line. -/
def joined (chain : List String) : String := ": ".intercalate chain

/-- The failure on one line. -/
def message (f : Failure) : String := joined f.chain

/-- The failure as part of a larger activity. -/
def within (activity : Activity) (f : Failure) : Failure :=
  { f with during := activity :: f.during }

end Failure

end StubInsertion
