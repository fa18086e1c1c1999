import StubInsertion.Text.Bytes

/-!
# Strict UTF-8

Decoding as a machine that reads one byte at a time. Between two bytes the machine either rests
between characters or knows how many continuation bytes a character still needs and within which
bounds the next of them must lie; the bounds shut out overlong forms, surrogates and numbers above
`10FFFF`.

* **Validity.** `isValid` runs the machine; `run_append` splits a run at any place.
* **Decoding.** `decode` gives the characters of a valid text.
* **Display.** `display` shows any bytes: each ill-formed piece that could still have been the
  start of a character becomes one replacement character.
-/

namespace StubInsertion.Utf8

/-- Where the machine stands between two bytes. -/
inductive State
  /-- between two characters -/
  | rest
  /-- inside a character of which `needed + 1` bytes are missing; the next one lies between `low`
  and `high`, and `value` holds the bits read so far -/
  | inside (needed : Nat) (low high : UInt8) (value : Nat)
  deriving DecidableEq, Repr

/-- The result of one byte: the next state, with the character that the byte completes. -/
structure Reading where
  next : State
  done : Option Char
  deriving DecidableEq, Repr

/-- Read a byte that starts a character. -/
def start (b : UInt8) : Option Reading :=
  let v := b.toNat
  if v ≤ 0x7f then some ⟨.rest, some (Char.ofNat v)⟩
  else if v < 0xc2 then none
  else if v ≤ 0xdf then some ⟨.inside 0 0x80 0xbf (v - 0xc0), none⟩
  else if v = 0xe0 then some ⟨.inside 1 0xa0 0xbf (v - 0xe0), none⟩
  else if v = 0xed then some ⟨.inside 1 0x80 0x9f (v - 0xe0), none⟩
  else if v ≤ 0xef then some ⟨.inside 1 0x80 0xbf (v - 0xe0), none⟩
  else if v = 0xf0 then some ⟨.inside 2 0x90 0xbf (v - 0xf0), none⟩
  else if v ≤ 0xf3 then some ⟨.inside 2 0x80 0xbf (v - 0xf0), none⟩
  else if v = 0xf4 then some ⟨.inside 2 0x80 0x8f (v - 0xf0), none⟩
  else none

/-- Read one byte; `none` if no text continues like this. -/
def step : State → UInt8 → Option Reading
  | .rest, b => start b
  | .inside needed low high value, b =>
    if low ≤ b ∧ b ≤ high then
      let value := value * 64 + (b.toNat - 0x80)
      match needed with
      | 0 => some ⟨.rest, some (Char.ofNat value)⟩
      | n + 1 => some ⟨.inside n 0x80 0xbf value, none⟩
    else none

/-- The state after some bytes, if they can be read. -/
def run : State → Bytes → Option State
  | s, [] => some s
  | s, b :: bs => match step s b with
    | some r => run r.next bs
    | none => none

theorem run_append (s : State) (a b : Bytes) : run s (a ++ b) = (run s a).bind (run · b) := by
  induction a generalizing s with
  | nil => rfl
  | cons x a ih =>
    simp only [List.cons_append, run]
    cases step s x with
    | none => rfl
    | some r => exact ih r.next

/-- Strictly valid UTF-8: no surrogates, no overlong forms, at most `10FFFF`, nothing cut off. -/
def isValid (text : Bytes) : Bool := run .rest text = some .rest

/-- The characters read from state `s` on; `none` if the text is not valid from there. -/
def decodeFrom : State → Bytes → Option (List Char)
  | .rest, [] => some []
  | .inside .., [] => none
  | s, b :: bs => match step s b with
    | some r => (decodeFrom r.next bs).map (r.done.toList ++ ·)
    | none => none

/-- The characters read from state `s` on, after those in `done`, which are in reverse. -/
def decodeOnto (done : List Char) : State → Bytes → Option (List Char)
  | .rest, [] => some done.reverse
  | .inside .., [] => none
  | s, b :: bs => match step s b with
    | some r => decodeOnto (r.done.toList ++ done) r.next bs
    | none => none

theorem decodeOnto_eq (done : List Char) (s : State) (text : Bytes) :
    decodeOnto done s text = (decodeFrom s text).map (done.reverse ++ ·) := by
  induction text generalizing done s with
  | nil => cases s <;> simp [decodeOnto, decodeFrom]
  | cons b bs ih =>
    cases h : step s b with
    | none => simp [decodeOnto, decodeFrom, h]
    | some r => cases e : r.done <;> simp [decodeOnto, decodeFrom, h, ih, e, Function.comp_def]

/-- The characters of a valid text. -/
def decode (text : Bytes) : Option (List Char) := decodeOnto [] .rest text

theorem decode_eq (text : Bytes) : decode text = decodeFrom .rest text := by
  simp [decode, decodeOnto_eq]

theorem decodeFrom_isSome (s : State) (text : Bytes) :
    (decodeFrom s text).isSome = decide (run s text = some .rest) := by
  induction text generalizing s with
  | nil => cases s <;> simp [decodeFrom, run]
  | cons b bs ih =>
    cases h : step s b with
    | none => simp [decodeFrom, run, h]
    | some r => simp [decodeFrom, run, h, ih]

/-- A text can be decoded if and only if it is valid. -/
theorem decode_isSome (text : Bytes) : (decode text).isSome = isValid text := by
  rw [decode_eq, decodeFrom_isSome, isValid]

/-- The string whose encoding is the text. -/
def toString? (text : Bytes) : Option String := (decode text).map String.ofList

/-- U+FFFD, shown in the place of bytes that are no character. -/
def replacement : Char := '\ufffd'

/-- The characters shown from state `s` on. A byte that cannot continue the character begun before
it ends that piece and is read again as the start of the next one. -/
def decodeLossyFrom : State → Bytes → List Char
  | .rest, [] => []
  | .inside .., [] => [replacement]
  | s, b :: bs => match step s b, s with
    | some r, _ => r.done.toList ++ decodeLossyFrom r.next bs
    | none, .rest => replacement :: decodeLossyFrom .rest bs
    | none, .inside .. => replacement :: match start b with
      | some r => r.done.toList ++ decodeLossyFrom r.next bs
      | none => replacement :: decodeLossyFrom .rest bs

/-- Any bytes as a string that can be shown. -/
def display (text : Bytes) : String := String.ofList (decodeLossyFrom .rest text)

end StubInsertion.Utf8
