import StubInsertion.Toml.Reader

/-!
# TOML documents

A document is a list of statements, one a line: assignments and headers. Statements after a header
belong to its table.

* **Statements.** `statement` reads one.
* **Building.** `Builder` holds the tables that are finished and the one at hand.
* **Documents.** `parse` reads a document, or says where the first statement stands that is none or
  does not fit those before it.
-/

namespace StubInsertion.Toml

/-- A line of a document. -/
inductive Statement
  | empty
  | assignment (way : List Key) (key : Key) (span : Span) (value : Value)
  /-- a header in single brackets or, for an array of tables, in double ones -/
  | header (array : Bool) (way : List Key) (key : Key) (span : Span)

/-- Read the end of a line: blanks, perhaps a comment, and a line end or the end of the document. -/
def lineEnd (s : List Char) : Option (List Char) :=
  let s := match skipBlank s with
    | '#' :: s => s.dropWhile isTextChar
    | s => s
  match s with
  | [] => some []
  | '\n' :: s => some s
  | '\r' :: '\n' :: s => some s
  | _ => none

/-- Read a statement that starts here. -/
def statement (s : List Char) : Option (Statement × List Char) :=
  match s with
  | '[' :: '[' :: rest => do
    let ((way, key), rest) ← keys (skipBlank rest)
    let rest ← expect ']' (← expect ']' rest)
    return (.header true way key ⟨s, rest⟩, rest)
  | '[' :: rest => do
    let ((way, key), rest) ← keys (skipBlank rest)
    let rest ← expect ']' rest
    return (.header false way key ⟨s, rest⟩, rest)
  | _ =>
    if s.isEmpty || atLineEnd s || s.head? = some '#' then some (.empty, s)
    else do
      let (((way, key), span, v), rest) ← pair (some ∘ skipBlank) (value maxNesting) s
      return (.assignment way key span v, rest)

/-- A header whose table is at hand. -/
structure Header where
  array : Bool
  way : List Key
  key : Key
  span : Span
  deriving DecidableEq, Repr

/-- A document as far as it is read. -/
structure Builder where
  finished : Table
  header : Option Header
  atHand : Table

namespace Builder

/-- The tables with the one at hand in its place. -/
def finish (b : Builder) : Option Table :=
  match b.header with
  | none => some b.atHand
  | some h => b.finished.enter h.array h.way h.key h.span b.atHand

/-- The tables after one more statement. -/
def add (b : Builder) : Statement → Option Builder
  | .empty => some b
  | .assignment way key span value => do
    return { b with atHand := ← b.atHand.assign .header way key span value }
  | .header array way key span => do
    let finished ← b.finish
    let header := some ⟨array, way, key, span⟩
    if array then return ⟨finished, header, []⟩
    else
      let atHand ← reopened finished way key
      return ⟨finished, header, atHand⟩
where
  /-- The entries that the table of a header has already. -/
  reopened (t : Table) : List Key → Key → Option Table
    | [], key => t.reopen key.name
    | step :: way, key => match t.get? step.name with
      | none => some []
      | some (.table kind inner) => if kind = .inline then none else reopened inner way key
      | some (.tables last _) => reopened last way key
      | some _ => none

end Builder

/-- Read at most `count` lines. An error is the rest of the document at the faulty statement. -/
def parseFrom : (count : Nat) → Builder → List Char → Except (List Char) Table
  | 0, _, s => .error s
  | count + 1, b, s =>
    let start := skipBlank s
    let read := do
      let (what, s) ← statement start
      return (← b.add what, ← lineEnd s)
    match read with
    | none => .error start
    | some (b, []) => match b.finish with
      | some t => .ok t
      | none => .error start
    | some (b, s) => parseFrom count b s

/-- The document without a byte order mark. -/
def skipMark : List Char → List Char
  | '\ufeff' :: s => s
  | s => s

/-- Read a document. An error is the rest of the document at the statement that is wrong. -/
def parse (document : List Char) : Except (List Char) Table :=
  parseFrom (document.length + 1) ⟨[], none, []⟩ (skipMark document)

end StubInsertion.Toml
