import StubInsertion.Toml.Digits
import StubInsertion.Toml.Value

/-!
# Numbers and date-times of TOML

A number or a date-time is read from the word that stands in its place.

* **Underscores.** `grouped` says where they may stand; `ungroup` takes them out.
* **Numbers.** `integer?` and `float?` decide whether a word is one and give its value. A word can
  be a whole number by its form and still have no value; that matters only when the value is used.
* **Date-times.** `isDateTime` decides whether a word is a date, a time of day or both.
-/

namespace StubInsertion.Toml

/-! ### Underscores -/

/-- Does every underscore stand between two digits? `allowed` says that one may stand here, as far
as what is ahead of it is concerned. -/
def groupedFrom (ok : Char → Bool) : (allowed : Bool) → List Char → Bool
  | _, [] => true
  | allowed, c :: rest =>
    if c = '_' then allowed && rest.head?.any ok && groupedFrom ok false rest
    else groupedFrom ok (ok c) rest

/-- Does every underscore of a word stand between two digits? -/
def grouped (ok : Char → Bool) (word : List Char) : Bool := groupedFrom ok false word

/-- The word without its underscores. -/
def ungroup (word : List Char) : List Char := word.filter (· ≠ '_')

/-- The sign of a word, true for a minus, and the word without it. -/
def signed : List Char → Bool × List Char
  | '-' :: rest => (true, rest)
  | '+' :: rest => (false, rest)
  | word => (false, word)

/-- A number with its sign. -/
def withSign (negative : Bool) (n : Nat) : Int := if negative then -n else n

/-! ### Whole numbers -/

/-- The whole number of digits in a base; there is none without digits. -/
def basedInteger? (base : Nat) (ok : Char → Bool) (word : List Char) : Option (Option Int) :=
  let digits := ungroup word
  if digits.all ok && grouped ok word then
    some (if digits.isEmpty then none else some (ofDigits base digits))
  else none

/-- The marks of a word that is no whole number: those of a floating-point number, and the space
between a date and a time of day. -/
def otherForm : List Char := ['.', 'e', 'E', ' ']

/-- The whole number in base ten that a word is. It has no leading zero. A word that starts with a
group of digits and an underscore, and has no mark of another form in it, is taken for a whole
number if its underscores stand where they may in any base; with other characters than digits in it,
it has no value. -/
def decimalInteger? (word : List Char) : Option (Option Int) :=
  let (negative, magnitude) := signed word
  let tail := magnitude.dropWhile isDigit
  if magnitude = ['0'] then some (some 0)
  else if magnitude.isEmpty || magnitude.head? = some '0' then none
  else if tail.head?.any (· ≠ '_') || tail.any otherForm.contains then none
  else if grouped isHexDigit word then
    let digits := ungroup magnitude
    some (if digits.all isDigit then some (withSign negative (ofDigits 10 digits)) else none)
  else none

/-- The whole number that a word is, if it is one, and its value, if it has one. -/
def integer? : List Char → Option (Option Int)
  | '0' :: 'x' :: word => basedInteger? 16 isHexDigit word
  | '0' :: 'o' :: word => basedInteger? 8 (fun c => '0' ≤ c && c ≤ '7') word
  | '0' :: 'b' :: word => basedInteger? 2 (fun c => c = '0' || c = '1') word
  | word => decimalInteger? word

/-! ### Floating-point numbers -/

/-- A digit or an underscore. -/
def inGroup (c : Char) : Bool := isDigit c || c = '_'

/-- The digits and underscores at the start of a word, of which some are digits, and the rest. -/
def digitGroup (word : List Char) : Option (List Char × List Char) :=
  let digits := ungroup (word.takeWhile inGroup)
  if digits.isEmpty then none else some (digits, word.dropWhile inGroup)

/-- The size from which on an exponent no longer grows. -/
def exponentLimit : Nat := 65536

/-- The size of an exponent. Digits count up to the one with which it reaches the limit; it is then
too great for any number that is not as long itself. -/
def exponentSize (digits : List Char) : Nat :=
  digits.foldl (fun n c => if n < exponentLimit then n * 10 + digitValue c else n) 0

/-- The exponent that stands at the end of a word, if one does. -/
def exponent? : List Char → Option Int
  | [] => some 0
  | c :: rest =>
    if c = 'e' ∨ c = 'E' then
      let (negative, rest) := signed rest
      match digitGroup rest with
      | some (digits, []) => some (withSign negative (exponentSize digits))
      | _ => none
    else none

/-- The floating-point number that a word is. -/
def float? (word : List Char) : Option DecimalLiteral :=
  let (negative, magnitude) := signed word
  if magnitude = ['i', 'n', 'f'] then some (.infinity negative)
  else if magnitude = ['n', 'a', 'n'] then some .notANumber
  else if !grouped isDigit word then none
  else do
    let (whole, rest) ← digitGroup magnitude
    let (places, rest) ← match rest with
      | '.' :: rest => digitGroup rest
      | rest => some ([], rest)
    let exponent ← exponent? rest
    if magnitude.head? = some '0' ∧ 1 < whole.length then none
    else return .finite negative ⟨ofDigits 10 (whole ++ places), exponent - places.length⟩

/-! ### Date-times -/

/-- A number of exactly `count` digits, and the rest. -/
def fixedDigits (count : Nat) (s : List Char) : Option (Nat × List Char) :=
  let digits := s.take count
  if digits.length = count && digits.all isDigit then some (ofDigits 10 digits, s.drop count)
  else none

/-- The rest after a character that has to stand here. -/
def expect (c : Char) : List Char → Option (List Char)
  | d :: rest => if d = c then some rest else none
  | [] => none

/-- The number of days of a month. -/
def daysIn (year month : Nat) : Nat :=
  if month = 2 then if year % 4 = 0 ∧ (year % 100 ≠ 0 ∨ year % 400 = 0) then 29 else 28
  else if month = 4 ∨ month = 6 ∨ month = 9 ∨ month = 11 then 30
  else 31

/-- The rest after a date of the calendar. -/
def date (s : List Char) : Option (List Char) := do
  let (year, s) ← fixedDigits 4 s
  let (month, s) ← fixedDigits 2 (← expect '-' s)
  let (day, s) ← fixedDigits 2 (← expect '-' s)
  if 1 ≤ month ∧ month ≤ 12 ∧ 1 ≤ day ∧ day ≤ daysIn year month then some s else none

/-- The rest after seconds with their fraction. -/
def seconds (s : List Char) : Option (List Char) := do
  let (second, s) ← fixedDigits 2 s
  if second > 60 then none
  else match s with
    | '.' :: s => if (s.takeWhile isDigit).isEmpty then none else some (s.dropWhile isDigit)
    | s => some s

/-- The rest after a time of day; the seconds may be left out. -/
def timeOfDay (s : List Char) : Option (List Char) := do
  let (hour, s) ← fixedDigits 2 s
  let (minute, s) ← fixedDigits 2 (← expect ':' s)
  if hour > 23 ∨ minute > 59 then none
  else match s with
    | ':' :: s => seconds s
    | s => some s

/-- The rest after an offset from universal time, written like a time of day. -/
def offset : List Char → Option (List Char)
  | [] => some []
  | c :: s =>
    if c = 'Z' ∨ c = 'z' then some s
    else if c = '+' ∨ c = '-' then do
      let (hours, s) ← fixedDigits 2 s
      let (minutes, s) ← fixedDigits 2 (← expect ':' s)
      if hours ≤ 23 ∧ minutes ≤ 59 then some s else none
    else none

/-- Is the word a date, a time of day, or both with or without an offset? -/
def isDateTime (word : List Char) : Bool :=
  match date word with
  | some [] => true
  | some (c :: time) =>
    (c = 'T' || c = 't' || c = ' ') && ((timeOfDay time).bind offset) = some []
  | none => timeOfDay word = some []

end StubInsertion.Toml
