import StubInsertion.Source.Line
import StubInsertion.Text.Search

/-!
# Texts as lines

* **Lines.** `lines` cuts a text after every newline, so each line keeps its terminator and nothing
  is lost (`flatten_lines`); only the last line can lack one. `lines_cons` is the equation to reason
  with.
* **Place.** `insertLine` is the number of the first line of code, or one past the last line.
* **Marks.** `isMarked` looks for a marker line by line (`isMarked_iff`).
-/

namespace StubInsertion.Source

/-- Cut the text after every newline. `line` holds the bytes of the line at hand and `done` the
lines before it, both in reverse. -/
def linesOnto (done : List Bytes) (line : Bytes) : Bytes → List Bytes
  | [] => (if line.isEmpty then done else line.reverse :: done).reverse
  | b :: rest =>
    if b = newline then linesOnto ((b :: line).reverse :: done) [] rest
    else linesOnto done (b :: line) rest

/-- The lines of a text, each with its terminator. The empty text has none. -/
def lines (text : Bytes) : List Bytes := linesOnto [] [] text

@[simp] theorem lines_nil : lines [] = [] := rfl

/-- Put a piece of a line ahead of the first of some lines. -/
def prepend (piece : Bytes) : List Bytes → List Bytes
  | [] => if piece.isEmpty then [] else [piece]
  | line :: more => (piece ++ line) :: more

theorem linesOnto_eq (done : List Bytes) (line text : Bytes) :
    linesOnto done line text = done.reverse ++ prepend line.reverse (lines text) := by
  induction text generalizing done line with
  | nil => cases line <;> simp [linesOnto, prepend]
  | cons b rest ih =>
    rw [lines, linesOnto, linesOnto]
    by_cases h : b = newline
    · simp only [h, if_true, ih]
      cases lines rest <;> simp [prepend]
    · simp only [h, if_false, ih]
      cases lines rest <;> simp [prepend]

theorem lines_cons (b : UInt8) (rest : Bytes) :
    lines (b :: rest) = if b = newline then [b] :: lines rest else prepend [b] (lines rest) := by
  rw [lines, linesOnto]
  by_cases h : b = newline
  · simp only [h, if_true, linesOnto_eq]
    cases lines rest <;> simp [prepend]
  · simp [h, linesOnto_eq]

theorem flatten_prepend (piece : Bytes) (ls : List Bytes) :
    (prepend piece ls).flatten = piece ++ ls.flatten := by
  cases ls <;> cases piece <;> simp [prepend]

theorem flatten_lines (text : Bytes) : (lines text).flatten = text := by
  induction text with
  | nil => rfl
  | cons b rest ih => rw [lines_cons]; split <;> simp [flatten_prepend, ih]

/-- The line does not end in a newline. -/
def isOpen (line : Bytes) : Bool := line.getLast? ≠ some newline

/-- The lines ahead of the first line of code. -/
def preamble (ls : List Bytes) : List Bytes := ls.takeWhile fun l => (LineKind.of l).isPreamble

/-- The number, counted from one, of the first line of code, or one past the last line. -/
def insertLine (ls : List Bytes) : Nat := (preamble ls).length + 1

/-- Does some line of the text contain the marker? The empty marker is in every text. -/
def isMarked (text marker : Bytes) : Bool :=
  let pattern := Pattern.of marker
  marker.isEmpty || (lines text).any pattern.occursIn

theorem isMarked_iff (text marker : Bytes) :
    isMarked text marker = true ↔ marker = [] ∨ ∃ line ∈ lines text, marker <:+: line := by
  simp [isMarked, Pattern.occursIn_of, Bytes.occursIn_iff]

end StubInsertion.Source
