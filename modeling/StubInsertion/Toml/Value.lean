import StubInsertion.Decimal.Literal

/-!
# TOML values

* **Spans.** A `Span` marks a piece of a document by what is left of the document at its two ends,
  so a reader needs no counter and marks a piece without measuring it.
* **Values.** `Value` keeps what a value is; a table keeps with each key where the key and its value
  are written, and by what kind of notation the table came into being.
-/

namespace StubInsertion.Toml

/-- A piece of a document: the rest of the document from its start on, and the rest after it. -/
structure Span where
  start : List Char
  stop : List Char
  deriving DecidableEq, Repr

/-- The characters of a piece. -/
def Span.text (span : Span) : List Char := span.start.take (span.start.length - span.stop.length)

/-- A key, decoded, and where it is written. -/
structure Key where
  name : String
  span : Span
  deriving DecidableEq, Repr

/-- How a table came into being, which decides whether it can still grow. -/
inductive TableKind
  /-- by a header of its own, or as the document -/
  | header
  /-- by a longer header that passes through it -/
  | implied
  /-- by a dotted key that passes through it -/
  | dotted
  /-- in braces; it is complete -/
  | inline
  deriving DecidableEq, Repr

/-- A value of TOML. -/
inductive Value
  | string (text : String)
  /-- a whole number; it has no value if it is only written like one -/
  | integer (value : Option Int)
  | float (literal : DecimalLiteral)
  | boolean (value : Bool)
  | dateTime
  | array (items : List Value)
  /-- an array that headers made, and so can add to: its last table and those before it, the latest
  first -/
  | tables (last : List (Key × Span × Value)) (earlier : List (List (Key × Span × Value)))
  | table (kind : TableKind) (entries : List (Key × Span × Value))

/-- Keys in the order in which they were entered, each with its value and where the value is
written. -/
abbrev Table := List (Key × Span × Value)

namespace Table

/-- The value of a key. -/
def get? (t : Table) (name : String) : Option Value :=
  (List.find? (fun e => e.1.name = name) t).map fun e => e.2.2

/-- Does the table have the key? -/
def has (t : Table) (name : String) : Bool := List.any t fun e => e.1.name = name

/-- The table with another value for a key that it has. -/
def replace (t : Table) (name : String) (value : Value) : Table :=
  List.map (fun e => if e.1.name = name then (e.1, e.2.1, value) else e) t

/-- The table without a key. -/
def erase (t : Table) (name : String) : Table := List.filter (fun e => e.1.name ≠ name) t

end Table

end StubInsertion.Toml
