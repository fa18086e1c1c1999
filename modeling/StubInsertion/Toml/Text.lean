/-!
# Characters, blanks and strings of TOML

Readers take the rest of a document and give what they read with the rest after it.

* **Blanks.** `skipBlank` skips spaces and tabs; `skipTrivia` skips line ends and comments as well.
* **Strings.** `string` reads the four forms of a string: in one or three quotes, with escapes
  between double quotes.
-/

namespace StubInsertion.Toml

/-- A character that may stand in a text or a comment: no control character but the tab. -/
def isTextChar (c : Char) : Bool := c = '\t' || (' ' ≤ c && c ≠ '\x7f')

/-- A space or a tab. -/
def isBlank (c : Char) : Bool := c = ' ' || c = '\t'

/-- The rest without leading spaces and tabs. -/
def skipBlank (s : List Char) : List Char := s.dropWhile isBlank

/-- Does a line end start here? A carriage return is one only before a line feed. -/
def atLineEnd : List Char → Bool
  | '\n' :: _ => true
  | '\r' :: '\n' :: _ => true
  | _ => false

/-- The rest without leading blanks, line ends and comments; `none` for a character that has no
place among them. -/
def skipTrivia (inComment : Bool) : List Char → Option (List Char)
  | [] => some []
  | c :: rest =>
    if c = '\n' then skipTrivia false rest
    else if c = '\r' then if rest.head? = some '\n' then skipTrivia inComment rest else none
    else if inComment then if isTextChar c then skipTrivia true rest else none
    else if c = '#' then skipTrivia true rest
    else if isBlank c then skipTrivia false rest
    else some (c :: rest)

/-! ### Escapes -/

/-- The value of a hexadecimal digit. -/
def hexDigit? (c : Char) : Option Nat :=
  if '0' ≤ c ∧ c ≤ '9' then some (c.toNat - '0'.toNat)
  else if 'a' ≤ c ∧ c ≤ 'f' then some (c.toNat - 'a'.toNat + 10)
  else if 'A' ≤ c ∧ c ≤ 'F' then some (c.toNat - 'A'.toNat + 10)
  else none

/-- The character with a code point, surrogates excluded. -/
def scalar? (code : Nat) : Option Char :=
  if code.isValidChar then some (Char.ofNat code) else none

/-- The character that a backslash and one letter stand for. -/
def simpleEscape? : Char → Option Char
  | 'b' => some '\x08'
  | 't' => some '\t'
  | 'n' => some '\n'
  | 'f' => some '\x0c'
  | 'r' => some '\r'
  | 'e' => some '\x1b'
  | '"' => some '"'
  | '\\' => some '\\'
  | _ => none

/-- The number of hexadecimal digits after a backslash and a letter. -/
def hexEscape? : Char → Option Nat
  | 'x' => some 2
  | 'u' => some 4
  | 'U' => some 8
  | _ => none

/-! ### Strings -/

/-- Where a reader stands inside a string. -/
inductive InString
  | plain
  /-- after a backslash -/
  | escaped
  /-- in an escape of which `missing` digits are still to come -/
  | hex (missing value : Nat)
  /-- after a backslash and blanks, before the line end that has to follow -/
  | gap
  /-- after such a line end: blanks and line ends are skipped -/
  | skipping
  deriving DecidableEq, Repr

/-- The closing quotes of a string that start here: the quotes that still belong to the text and the
rest after the string. Up to two quotes belong to a text in three quotes. -/
def closing? (quote : Char) (long : Bool) (s : List Char) : Option (List Char × List Char) :=
  let run := (s.takeWhile (· = quote)).length
  if !long then if run = 0 then none else some ([], s.drop 1)
  else if run < 3 then none
  else some (List.replicate (min run 5 - 3) quote, s.drop (min run 5))

/-- Read a string from inside. `quote` closes it; `long` says that three quotes do, and that line
ends belong to the text. Escapes are read between double quotes only. -/
def stringFrom (quote : Char) (long : Bool) : InString → List Char → Option (List Char × List Char)
  | _, [] => none
  | state, c :: rest =>
    let next (state : InString) := stringFrom quote long state rest
    let also (c : Char) := (next .plain).map fun r => (c :: r.1, r.2)
    let lineEnd := long && (c = '\n' || (c = '\r' && rest.head? = some '\n'))
    let state := if state = .skipping ∧ ¬ (isBlank c ∨ lineEnd) then .plain else state
    match state with
    | .hex missing value => do
      let value := value * 16 + (← hexDigit? c)
      if missing ≤ 1 then
        let c ← scalar? value
        also c
      else next (.hex (missing - 1) value)
    | .escaped =>
      match simpleEscape? c, hexEscape? c with
      | some c, _ => also c
      | none, some digits => next (.hex digits 0)
      | none, none =>
        if lineEnd then next .skipping
        else if long && isBlank c then next .gap
        else none
    | .gap => if lineEnd then next .skipping else if isBlank c then next .gap else none
    | .skipping => next .skipping
    | .plain =>
      match closing? quote long (c :: rest) with
      | some closed => some closed
      | none =>
        if c = '\\' && quote = '"' then next .escaped
        else if isTextChar c || lineEnd then also c
        else none

/-- Read a string in single quotes of either kind. -/
def shortString : List Char → Option (String × List Char)
  | c :: rest =>
    if c = '"' ∨ c = '\'' then
      (stringFrom c false .plain rest).map fun r => (String.ofList r.1, r.2)
    else none
  | [] => none

/-- The text without the line end with which it starts. -/
def dropLineEnd : List Char → List Char
  | '\n' :: rest => rest
  | '\r' :: '\n' :: rest => rest
  | s => s

/-- Read a string of any form. A line end right after three quotes does not belong to the text. -/
def string (s : List Char) : Option (String × List Char) :=
  match s with
  | a :: b :: c :: rest =>
    if (a = '"' ∨ a = '\'') ∧ b = a ∧ c = a then
      (stringFrom a true .plain (dropLineEnd rest)).map fun r => (String.ofList r.1, r.2)
    else shortString s
  | _ => shortString s

end StubInsertion.Toml
