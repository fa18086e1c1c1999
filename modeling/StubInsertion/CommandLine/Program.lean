import StubInsertion.Batch
import StubInsertion.CommandLine.Arguments
import StubInsertion.CommandLine.Help
import StubInsertion.Config.Loading

/-!
# The program

* **Exit codes.** Files that fail do not change the exit code; a configuration that fails and an
  output that cannot be written do.
* **Run.** `Program.run` does what the arguments ask for and gives the exit code. The words for a
  configuration that is no TOML are taken as given.
-/

namespace StubInsertion.Program

/-- How a run ends. -/
inductive Exit
  /-- every file was treated or reported, or help was shown -/
  | done
  /-- the configuration or the output failed -/
  | failed
  /-- the arguments are not valid -/
  | misused
  /-- the arguments are not valid, and that could not be said -/
  | aborted
  deriving DecidableEq, Repr

/-- The exit code. -/
def Exit.code : Exit → Nat
  | .done => 0
  | .failed => 1
  | .misused => 2
  | .aborted => 101

variable {m : Type → Type} [Monad m] [Console m]

/-- Write a line to standard error. -/
def complain (line : String) : m Unit := Console.complain (utf8 line ++ [newline])

/-- Show the help text. -/
def showHelp : m Exit := do
  match ← Console.print (utf8 helpText) with
  | .ok () => return .done
  | .error e =>
    complain s!"write help: {e.message}"
    return .failed

/-- Say that the arguments are not valid, and which ones are. -/
def showUsage : m Exit := do
  match ← Console.print (utf8 ("Invalid argument(s).\n" ++ helpText ++ "\n")) with
  | .ok () => return .misused
  | .error e =>
    complain s!"failed printing to stdout: {e.message}"
    return .aborted

variable [FileCalls m]

/-- Load the block and put it into the files. -/
def process (words : Toml.Wording) (config : Option Path) (files : List Path) : m Exit := do
  let work : ExceptT Failure m Summary := do
    let block ← loadBlock words config
    Batch.runBatch block files
  match ← work.run with
  | .ok _ => return .done
  | .error failure =>
    complain failure.message
    return .failed

/-- Do what the arguments ask for. -/
def run (words : Toml.Wording) (args : List Bytes) : m Exit :=
  match Request.parse args with
  | none => showUsage
  | some .help => showHelp
  | some (.process config files) => process words config files

end StubInsertion.Program
