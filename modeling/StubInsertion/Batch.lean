import StubInsertion.Replacement
import StubInsertion.Source.Insertion

/-!
# Batches

Files are treated one after the other. A file that cannot be treated is reported and the batch goes
on; only a report that cannot be written ends it. That the log warns of such a file as well is left
out.

* **Files.** `processFile` reads a file, plans the insertion and replaces the file.
* **Report.** `reportLine` names the file and says why it failed.
* **Batches.** `runBatch` goes through a list of paths and counts the outcomes.
-/

namespace StubInsertion

/-- What became of one file. -/
inductive FileOutcome
  /-- the block stands before that line of the old file -/
  | inserted (line : Nat)
  /-- the marker was there, so the file was left alone -/
  | alreadyMarked
  deriving DecidableEq, Repr

/-- What became of the files of a batch. -/
structure Summary where
  inserted : Nat
  alreadyMarked : Nat
  /-- the files that could not be treated, in the order of the list -/
  failed : List Path
  deriving DecidableEq, Repr

namespace Summary

/-- Nothing has been done yet. -/
def empty : Summary := ⟨0, 0, []⟩

/-- One more file, treated or not. -/
def add (s : Summary) (p : Path) : Except Failure FileOutcome → Summary
  | .ok (.inserted _) => { s with inserted := s.inserted + 1 }
  | .ok .alreadyMarked => { s with alreadyMarked := s.alreadyMarked + 1 }
  | .error _ => { s with failed := s.failed ++ [p] }

end Summary

/-- What is reported of a file that could not be treated, without the line end. -/
def reportLine (p : Path) (chain : List String) : String :=
  "Unable to process source_file \"" ++ p.display ++ "\": " ++ Failure.joined chain

namespace Batch

variable {m : Type → Type} [Monad m] [FileCalls m]

/-- Put the block into a file, unless the file is marked. -/
def processFile (block : Block) (p : Path) : ExceptT Failure m FileOutcome := do
  let text ← attempt (.read p) (FileCalls.contents p)
  match Source.plan text block with
  | .alreadyMarked => return .alreadyMarked
  | .insert line contents =>
    Replacement.replaceFile p contents
    return .inserted line

variable [Console m]

/-- Report a file that could not be treated. -/
def report (p : Path) (failure : Failure) : ExceptT Failure m Unit :=
  attempt .writeReport (Console.print (utf8 (reportLine p failure.chain) ++ [newline]))

/-- Go through the paths, starting with a summary of what was done before. -/
def runFrom (block : Block) (summary : Summary) : List Path → ExceptT Failure m Summary
  | [] => return summary
  | p :: paths => do
    let outcome ← ExceptT.lift (processFile block p : ExceptT Failure m FileOutcome).run
    if let .error failure := outcome then report p failure
    runFrom block (summary.add p outcome) paths

/-- Go through the paths. -/
def runBatch (block : Block) (paths : List Path) : ExceptT Failure m Summary :=
  runFrom block .empty paths

end Batch

end StubInsertion
