import StubInsertion.Text.Bytes

/-!
# Kinds of source lines

A line is looked at byte by byte; white space is the six ASCII bytes only, so that a source in any
ASCII-compatible encoding can be read.

* **Predicates.** `isBlank`, `isComment` and `isDirective` recognise the lines a block may follow.
  They are pairwise exclusive, and a line terminator changes none of them.
* **Kind.** `LineKind.of` combines them; everything else is code.
-/

namespace StubInsertion.Source

/-- Tab, newline, vertical tab, form feed, carriage return or space. -/
def isSpace (b : UInt8) : Bool :=
  b == 0x09 || b == 0x0a || b == 0x0b || b == 0x0c || b == 0x0d || b == 0x20

/-- The line without its leading white space. -/
def skipSpace (line : Bytes) : Bytes := line.dropWhile isSpace

/-- The line without its leading white space, of which there has to be some. -/
def skipSomeSpace? : Bytes → Option Bytes
  | [] => none
  | b :: rest => if isSpace b then some (skipSpace rest) else none

/-- White space only, or nothing at all. -/
def isBlank (line : Bytes) : Bool := line.all isSpace

/-- A comment that has the line for itself. -/
def isComment (line : Bytes) : Bool := (skipSpace line).head? = some 0x23

/-- What follows the words `from __future__ import` at the start of the line. -/
def afterDirective? (line : Bytes) : Option Bytes := do
  let line ← Bytes.after? (utf8 "from") line
  let line ← skipSomeSpace? line
  let line ← Bytes.after? (utf8 "__future__") line
  let line ← skipSomeSpace? line
  Bytes.after? (utf8 "import") line

/-- An import from `__future__` that starts in the first column; it has to stay ahead of every other
statement. -/
def isDirective (line : Bytes) : Bool := (afterDirective? line).isSome

/-- What a line is, as far as the place of a block is concerned. -/
inductive LineKind
  | blank
  | comment
  | directive
  | code
  deriving DecidableEq, Repr

namespace LineKind

/-- The kind of a line. -/
def of (line : Bytes) : LineKind :=
  if isBlank line then .blank
  else if isComment line then .comment
  else if isDirective line then .directive
  else .code

/-- A block may be placed after such a line. -/
def isPreamble : LineKind → Bool
  | .code => false
  | _ => true

end LineKind

end StubInsertion.Source
