import StubInsertion.Toml.Number
import StubInsertion.Toml.Table

/-!
# Reading keys and values

Readers take the rest of a document and give what they read with the rest after it.

* **Keys.** `keys` reads the components of a key.
* **Values.** `value` reads a value in which arrays and tables in braces stand within each other at
  most a given number of times.
-/

namespace StubInsertion.Toml

/-- The number of components that a key has at most. -/
def maxComponents : Nat := 80

/-- The number of arrays and tables in braces that stand within each other at most. -/
def maxNesting : Nat := 80

/-! ### Keys -/

/-- A character of a key without quotes. -/
def isBareChar (c : Char) : Bool := c.isAlphanum || c = '_' || c = '-'

/-- Read one component of a key. -/
def component (s : List Char) : Option (Key × List Char) :=
  match s with
  | '"' :: _ | '\'' :: _ => (shortString s).map fun r => (⟨r.1, s, r.2⟩, r.2)
  | _ =>
    let bare := s.takeWhile isBareChar
    let rest := s.dropWhile isBareChar
    if bare.isEmpty then none else some (⟨String.ofList bare, s, rest⟩, rest)

/-- Read at most `count` components with dots between them, and the blanks after them. -/
def components : (count : Nat) → List Char → Option (List Key × List Char)
  | 0, _ => none
  | count + 1, s => do
    let (key, s) ← component s
    match skipBlank s with
    | '.' :: s =>
      let (keys, s) ← components count (skipBlank s)
      return (key :: keys, s)
    | s => return ([key], s)

/-- Read a key: the components on the way, and the last one. -/
def keys (s : List Char) : Option ((List Key × Key) × List Char) := do
  let (all, s) ← components maxComponents s
  return ((all.dropLast, ← all.getLast?), s)

/-! ### Values -/

/-- The characters that end a word: line ends, the start of a comment and the marks of arrays,
tables and assignments. -/
def wordEnds : List Char := ['=', ',', '[', ']', '\x7b', '\x7d', '#', '\r', '\n']

/-- A character of a number, a date-time or one of the words for truth values that is no blank. -/
def isWordChar (c : Char) : Bool := !isBlank c && !wordEnds.contains c

/-- A character that opens a string. -/
def isQuote (c : Char) : Bool := c = '"' || c = '\''

/-- The number of characters of a word of which `length` characters, and then `blanks` blanks, have
been passed. A word goes on after blanks, unless a string starts there; so a date and a time of day
with a space between them are one word. Blanks at its end are no part of it. -/
def wordLength : (length blanks : Nat) → List Char → Nat
  | length, _, [] => length
  | length, blanks, c :: rest =>
    if isBlank c then wordLength length (blanks + 1) rest
    else if isWordChar c && (blanks = 0 || !isQuote c) then
      wordLength (length + blanks + 1) 0 rest
    else length

/-- The word that starts here, and the rest. -/
def word (s : List Char) : List Char × List Char := s.splitAt (wordLength 0 0 s)

/-- The value that a word stands for. -/
def ofWord (word : List Char) : Option Value :=
  if word = ['t', 'r', 'u', 'e'] then some (.boolean true)
  else if word = ['f', 'a', 'l', 's', 'e'] then some (.boolean false)
  else match integer? word with
    | some n => some (.integer n)
    | none => match float? word with
      | some x => some (.float x)
      | none => if isDateTime word then some .dateTime else none

/-- Read a value that is neither an array nor a table. -/
def scalar (s : List Char) : Option (Value × List Char) :=
  match s with
  | '"' :: _ | '\'' :: _ => (string s).map fun r => (.string r.1, r.2)
  | _ => (ofWord (word s).1).map fun v => (v, (word s).2)

/-- Read the items of an array up to its closing bracket. There are at most as many as `bound` has
characters. -/
def items (item : List Char → Option (Value × List Char)) :
    (bound : List Char) → List Char → Option (List Value × List Char)
  | [], _ => none
  | _ :: bound, s => do
    match ← skipTrivia false s with
    | ']' :: s => return ([], s)
    | s =>
      let (v, s) ← item s
      match ← skipTrivia false s with
      | ',' :: s =>
        let (vs, s) ← items item bound s
        return (v :: vs, s)
      | ']' :: s => return ([v], s)
      | _ => none

/-- Read a key, the equals sign and a value. `skip` skips what may stand around the equals sign. -/
def pair (skip : List Char → Option (List Char))
    (item : List Char → Option (Value × List Char)) (s : List Char) :
    Option (((List Key × Key) × Span × Value) × List Char) := do
  let (key, s) ← keys s
  let start ← skip (← expect '=' (← skip s))
  let (v, s) ← item start
  return ((key, ⟨start, s⟩, v), s)

/-- Read the pairs of a table in braces up to the closing brace. There are at most as many as
`bound` has characters. -/
def pairs (item : List Char → Option (Value × List Char)) :
    (bound : List Char) → Table → List Char → Option (Table × List Char)
  | [], _, _ => none
  | _ :: bound, t, s => do
    match ← skipTrivia false s with
    | '\x7d' :: s => return (t, s)
    | s =>
      let (((way, key), span, v), s) ← pair (skipTrivia false) item s
      let t ← t.assign .inline way key span v
      match ← skipTrivia false s with
      | ',' :: s => pairs item bound t s
      | '\x7d' :: s => return (t, s)
      | _ => none

/-- Read a value with at most `depth` arrays and tables in braces within each other. What is left of
the document has more characters than an array or a table there has items. -/
def value : (depth : Nat) → List Char → Option (Value × List Char)
  | 0, s => scalar s
  | depth + 1, s =>
    match s with
    | '[' :: rest => (items (value depth) s rest).map fun r => (.array r.1, r.2)
    | '\x7b' :: rest =>
      (pairs (value depth) s [] rest).map fun r => (.table .inline r.1, r.2)
    | _ => scalar s

end StubInsertion.Toml
