import StubInsertion.Toml.Value
import StubInsertion.Text.Bytes

/-!
# What is wrong with a document

A document that is TOML may hold a piece that does not fit. A diagnostic names the piece and the
problem with it. It is shown with the line on which the piece starts and a row of carets under the
piece, as far as it lies on that line.

* **Problems.** `Problem.message` is the wording of each.
* **Display.** `Diagnostic.message` shows a diagnostic.
* **Faults.** A document that is no TOML is rejected in the words of the reader of TOML. The rules of
  TOML settle neither these words nor the place that they name, so a `Wording` is a parameter of all
  that shows them, and what is proved holds for each.
-/

namespace StubInsertion.Toml

/-- A value as it is named in a problem. -/
inductive Found
  | integer (value : Int)
  | float (text : String)
  | boolean (value : Bool)
  | sequence
  | map
  deriving DecidableEq, Repr

/-- Does the whole number fit into a signed width? -/
def fitsSigned (bits : Nat) (n : Int) : Bool :=
  -(pow2 (bits - 1) : Int) ≤ n && n < (pow2 (bits - 1) : Int)

/-- Does the whole number fit into an unsigned width? -/
def fitsUnsigned (bits : Nat) (n : Int) : Bool := 0 ≤ n && n < (pow2 bits : Int)

/-- The name of a value. A whole number outside 64 bits, signed or unsigned, is named with the width
that holds it. -/
def Found.text : Found → String
  | .integer n =>
    if fitsSigned 64 n || fitsUnsigned 64 n then s!"integer \x60{n}\x60"
    else if fitsSigned 128 n then s!"integer \x60{n}\x60 as i128"
    else s!"integer \x60{n}\x60 as u128"
  | .float text => s!"floating point \x60{text}\x60"
  | .boolean b => s!"boolean \x60{b}\x60"
  | .sequence => "sequence"
  | .map => "map"

/-- What can be wrong with a piece of a document. -/
inductive Problem
  /-- the key is not one of those that are known -/
  | unknownKey (key : String) (known : List String)
  /-- the value is not of the kind that is wanted -/
  | wrongKind (found : Found) (wanted : String)
  /-- the whole number has no value, or one that is too large for any width -/
  | unusableInteger
  /-- the floating-point number is above the greatest one -/
  | floatTooLarge
  deriving DecidableEq, Repr

/-- The wording of a problem. -/
def Problem.message : Problem → String
  | .unknownKey key known =>
    let choice := " or ".intercalate (known.map quote)
    s!"unknown field {quote key}, expected {choice}"
  | .wrongKind found wanted => s!"invalid type: {found.text}, expected {wanted}"
  | .unusableInteger => "integer number overflowed"
  | .floatTooLarge => "floating-point number overflowed"
where
  /-- A key between backquotes. -/
  quote (key : String) : String := s!"\x60{key}\x60"

/-- The characters of a document before its end `rest`. -/
def before (document rest : List Char) : List Char := document.take (document.length - rest.length)

/-- The number of the line on which the end `rest` of a document starts, counted from one. -/
def lineAt (document rest : List Char) : Nat := (before document rest).count '\n' + 1

/-- A problem with a piece of a document. -/
structure Diagnostic where
  document : List Char
  span : Span
  problem : Problem
  deriving DecidableEq, Repr

namespace Diagnostic

/-- The characters before the piece. -/
def ahead (d : Diagnostic) : List Char := before d.document d.span.start

/-- The start of the line on which the piece starts, up to the piece. -/
def lead (d : Diagnostic) : List Char := (d.ahead.reverse.takeWhile (· ≠ '\n')).reverse

/-- The whole line on which the piece starts. -/
def line (d : Diagnostic) : List Char :=
  d.lead ++ d.span.start.takeWhile (· ≠ '\n')

/-- The number of the line, counted from one. -/
def lineNumber (d : Diagnostic) : Nat := lineAt d.document d.span.start

/-- The number of characters on the line before the piece. -/
def indent (d : Diagnostic) : Nat := d.lead.length

/-- The number of carets: the bytes of the piece, as far as the line has bytes for them. -/
def width (d : Diagnostic) : Nat :=
  let piece := utf8 (String.ofList d.span.text)
  max 1 (min piece.length ((utf8 (String.ofList d.line)).length - d.indent))

/-- Some copies of a character. -/
def times (count : Nat) (c : Char) : String := String.ofList (List.replicate count c)

/-- The diagnostic as it is shown, with a line end at the end. -/
def message (d : Diagnostic) : String :=
  let number := toString d.lineNumber
  let margin := times (number.length + 1) ' ' ++ "|"
  let line := String.ofList d.line
  let carets := times d.indent ' ' ++ times d.width '^'
  s!"TOML parse error at line {number}, column {d.indent + 1}\n" ++
    s!"{margin}\n{number} | {line}\n{margin} {carets}\n{d.problem.message}\n"

end Diagnostic

/-- What the reader of TOML says of a document that is none; its first faulty statement starts at
`rest`. -/
abbrev Wording := (document rest : List Char) → String

/-- Only where the first faulty statement starts. -/
def plainWording : Wording := fun document rest =>
  s!"TOML parse error at line {lineAt document rest}\n"

/-- Why a document makes no configuration. -/
inductive Fault
  /-- it is no TOML, and this is what the reader of TOML says of it -/
  | malformed (text : String)
  /-- a piece of it does not fit -/
  | misfit (diagnostic : Diagnostic)
  deriving DecidableEq, Repr

/-- The wording of a fault. -/
def Fault.message : Fault → String
  | .malformed text => text
  | .misfit d => d.message

end StubInsertion.Toml
