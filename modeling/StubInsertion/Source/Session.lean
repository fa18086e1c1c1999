import StubInsertion.Source.Insertion

/-!
# Editing sessions

A text that is changed step by step. Each step either plans an insertion and carries it out, or
splices bytes at a given line, by default before the first line of code.

* **Steps.** `Step.run` answers a step and gives the next text.
* **Sessions.** `session` runs a list of steps and keeps the answer and the text after each.
-/

namespace StubInsertion.Source

/-- One step of a session. A plan may come with a block that was rejected. -/
inductive Step
  | plan (block : Except Block.Rejection Block)
  | splice (block : Bytes) (line : Option Nat)

/-- What a step says. -/
inductive Answer
  | rejected (reason : Block.Rejection)
  | planned (insertion : Insertion)
  | spliced (contents : Bytes)
  deriving DecidableEq, Repr

namespace Step

/-- The answer to a step on a text, and the text after it. -/
def run (text : Bytes) : Step → Answer × Bytes
  | .plan (.error reason) => (.rejected reason, text)
  | .plan (.ok block) => match Source.plan text block with
    | .alreadyMarked => (.planned .alreadyMarked, text)
    | .insert line contents => (.planned (.insert line contents), contents)
  | .splice block line =>
    let ls := lines text
    let contents := Source.splice ls (line.getD (insertLine ls)) block
    (.spliced contents, contents)

end Step

/-- The answers of a session, each with the text after its step. -/
def session (text : Bytes) : List Step → List (Answer × Bytes)
  | [] => []
  | step :: steps =>
    let result := step.run text
    result :: session result.2 steps

end StubInsertion.Source
