import StubInsertion.Block.Basic
import StubInsertion.Source.Lines

/-!
# Putting a block into a text

* **Splicing.** `splice` places a block before a line of a list of lines; it adds newlines where the
  block would not start on a line of its own, and one more when nothing follows.
* **Planning.** `plan` decides what becomes of a text: nothing if it carries the marker, else the
  block goes before its first line of code.
-/

namespace StubInsertion.Source

/-- The newlines between the lines ahead of a block and the block. -/
def separator (head tail : List Bytes) : Bytes :=
  (if head.getLast?.any isOpen then [newline] else []) ++ (if tail.isEmpty then [newline] else [])

/-- The text with `block` placed before line number `line`. A number that is out of range counts as
the nearest one in range. -/
def splice (ls : List Bytes) (line : Nat) (block : Bytes) : Bytes :=
  let head := ls.take (line - 1)
  let tail := ls.drop (line - 1)
  head.flatten ++ separator head tail ++ block ++ tail.flatten

/-- What becomes of one text. -/
inductive Insertion
  /-- the marker is there already, so the text stays as it is -/
  | alreadyMarked
  /-- the block goes before line number `line`, which gives `contents` -/
  | insert (line : Nat) (contents : Bytes)
  deriving DecidableEq, Repr

/-- Decide whether and where the block goes into the text. -/
def plan (text : Bytes) (block : Block) : Insertion :=
  if isMarked text block.mark then .alreadyMarked
  else
    let ls := lines text
    let line := insertLine ls
    .insert line (splice ls line block.bytes)

end StubInsertion.Source
