/-!
# Byte strings

Source files are byte strings in an encoding nobody asks about, so texts, lines and paths are lists
of bytes here.

* **Bytes of a text.** `utf8 s` is the UTF-8 encoding of a string.
* **Search.** `occursIn w t` decides whether `w` stands in `t` in one piece (`occursIn_iff`).
* **Leading words.** `after? w t` is what follows the word `w` at the start of `t`
  (`after?_eq_some_iff`).
-/

namespace StubInsertion

/-- A text in whatever encoding its author chose. -/
abbrev Bytes := List UInt8

/-- The byte that ends a line. -/
def newline : UInt8 := 0x0a

/-- The UTF-8 encoding of a string. -/
def utf8 (s : String) : Bytes := s.toList.flatMap String.utf8EncodeChar

theorem utf8_append (s t : String) : utf8 (s ++ t) = utf8 s ++ utf8 t := by
  simp [utf8, List.flatMap_append]

namespace Bytes

/-- Does `word` stand in the text in one piece? -/
def occursIn (word : Bytes) : Bytes → Bool
  | [] => word.isEmpty
  | b :: rest => word.isPrefixOf (b :: rest) || occursIn word rest

theorem occursIn_iff (word text : Bytes) : occursIn word text = true ↔ word <:+: text := by
  induction text with
  | nil => simp [occursIn]
  | cons b rest ih => simp [occursIn, ih, List.infix_cons_iff]

theorem occursIn_utf8_append (before word after : String) :
    (utf8 word).occursIn (utf8 (before ++ word ++ after)) = true := by
  rw [occursIn_iff, utf8_append, utf8_append]
  exact List.infix_append ..

/-- What follows `word` at the start of the text, if the text starts with it. -/
def after? : (word text : Bytes) → Option Bytes
  | [], text => some text
  | _ :: _, [] => none
  | w :: word, b :: text => if w = b then after? word text else none

theorem after?_eq_some_iff {word text rest : Bytes} :
    after? word text = some rest ↔ text = word ++ rest := by
  induction word generalizing text with
  | nil => simp [after?]
  | cons w word ih =>
    cases text with
    | nil => simp [after?]
    | cons b text =>
      by_cases h : w = b
      · simp [after?, h, ih]
      · simp [after?, h, Ne.symm h]

end Bytes

end StubInsertion
