import StubInsertion.Text.Bytes

/-!
# Searching in one pass

A word is compared with a piece of the text only where the two have the same fingerprint. The
fingerprint of the next piece follows from that of the last one, so a text is as a rule read once,
however long the word is.

* **Fingerprints.** `fingerprint` is the value of a polynomial whose coefficients are the bytes;
  `fingerprint_shift` moves it on by one byte.
* **Search.** `Pattern.occursIn` decides what `Bytes.occursIn` decides (`Pattern.occursIn_of`).
-/

namespace StubInsertion

/-! ### Fingerprints -/

/-- Where the polynomials are evaluated: a large odd number, so that few words share a value. -/
def fingerprintBase : UInt64 := 0x100000001b3

/-- The fingerprint of a piece of a text, with those of the bytes ahead of it in `h`. -/
def fingerprintOnto (h : UInt64) (piece : Bytes) : UInt64 :=
  piece.foldl (fun h b => h * fingerprintBase + b.toUInt64) h

/-- The fingerprint of a piece of a text. -/
def fingerprint (piece : Bytes) : UInt64 := fingerprintOnto 0 piece

/-- What a byte counts for in a fingerprint when `count` bytes come after it. -/
def fingerprintWeight (count : Nat) : UInt64 := count.repeat (· * fingerprintBase) 1

theorem fingerprintWeight_succ (count : Nat) :
    fingerprintWeight (count + 1) = fingerprintWeight count * fingerprintBase := rfl

theorem fingerprintOnto_cons (h : UInt64) (b : UInt8) (piece : Bytes) :
    fingerprintOnto h (b :: piece) = fingerprintOnto (h * fingerprintBase + b.toUInt64) piece := rfl

theorem fingerprintOnto_eq (h : UInt64) (piece : Bytes) :
    fingerprintOnto h piece = h * fingerprintWeight piece.length + fingerprint piece := by
  induction piece generalizing h with
  | nil => simp [fingerprintOnto, fingerprint, fingerprintWeight, Nat.repeat]
  | cons b piece ih =>
    rw [fingerprint, fingerprintOnto_cons, fingerprintOnto_cons, ih,
      ih (0 * fingerprintBase + b.toUInt64), List.length_cons, fingerprintWeight_succ]
    grind

/-- The fingerprint one byte on: `c` joins the piece behind and `b` leaves it in front. -/
theorem fingerprint_shift (b c : UInt8) (piece : Bytes) :
    fingerprint (b :: piece) * fingerprintBase + c.toUInt64 -
      b.toUInt64 * fingerprintWeight (piece.length + 1) = fingerprint (piece ++ [c]) := by
  have front : fingerprint (b :: piece) =
      fingerprintOnto (0 * fingerprintBase + b.toUInt64) piece := rfl
  have behind : fingerprint (piece ++ [c]) =
      fingerprint piece * fingerprintBase + c.toUInt64 := by
    simp [fingerprint, fingerprintOnto]
  rw [front, fingerprintOnto_eq, behind, fingerprintWeight_succ]
  grind

/-! ### Search -/

/-- A word that is looked for, with what is worked out once for all texts. -/
structure Pattern where
  word : Bytes
  length : Nat
  print : UInt64
  weight : UInt64

namespace Pattern

/-- The pattern of a word. -/
def of (word : Bytes) : Pattern :=
  ⟨word, word.length, fingerprint word, fingerprintWeight word.length⟩

/-- Does the word stand at the start of the text? `window` is the fingerprint of as many bytes of
the text as the word has. -/
def isAt (p : Pattern) (window : UInt64) (text : Bytes) : Bool :=
  window == p.print && p.word.isPrefixOf text

/-- Does the word stand in the text in one piece? `ahead` is the text after the bytes that `window`
is the fingerprint of. -/
def scan (p : Pattern) : (window : UInt64) → (text ahead : Bytes) → Bool
  | window, b :: text, c :: ahead =>
    p.isAt window (b :: text) ||
      p.scan (window * fingerprintBase + c.toUInt64 - b.toUInt64 * p.weight) text ahead
  | window, text, _ => p.isAt window text

/-- Does the word stand in the text in one piece? -/
def occursIn (p : Pattern) (text : Bytes) : Bool :=
  p.scan (fingerprint (text.take p.length)) text (text.drop p.length)

theorem isAt_iff (word text : Bytes) :
    (of word).isAt (fingerprint (text.take word.length)) text = true ↔ word <+: text := by
  simp only [isAt, of, Bool.and_eq_true, beq_iff_eq, List.isPrefixOf_iff_prefix]
  refine ⟨And.right, fun h => ⟨?_, h⟩⟩
  rw [← List.prefix_iff_eq_take.1 h]

theorem scan_iff (word text ahead : Bytes) (h : text.drop word.length = ahead) :
    (of word).scan (fingerprint (text.take word.length)) text ahead = true ↔ word <:+: text := by
  induction ahead generalizing text with
  | nil =>
    have short : text.length ≤ word.length := List.drop_eq_nil_iff.1 h
    have stop : (of word).scan (fingerprint (text.take word.length)) text [] =
        (of word).isAt (fingerprint (text.take word.length)) text := by
      cases text <;> rfl
    rw [stop, isAt_iff]
    refine ⟨List.IsPrefix.isInfix, fun infixed => ?_⟩
    exact infixed.eq_of_length_le short ▸ List.prefix_rfl
  | cons c ahead ih =>
    cases text with
    | nil => simp at h
    | cons b text =>
      rw [scan, Bool.or_eq_true, isAt_iff, List.infix_cons_iff]
      cases word with
      | nil => simp
      | cons w word =>
        simp only [List.length_cons, List.drop_succ_cons] at h
        have next : text.take (w :: word).length = text.take word.length ++ [c] := by
          rw [List.length_cons, List.take_add, h]
          rfl
        have rest : text.drop (w :: word).length = ahead := by
          rw [List.length_cons, ← List.drop_drop, h]
          rfl
        have long : (text.take word.length).length = word.length := by
          have := congrArg List.length h
          simp only [List.length_drop, List.length_cons] at this
          rw [List.length_take]
          omega
        have shift := fingerprint_shift b c (text.take word.length)
        rw [long, ← next] at shift
        rw [← ih text rest, ← shift]
        rfl

theorem occursIn_of (word text : Bytes) : (of word).occursIn text = word.occursIn text := by
  rw [Bool.eq_iff_iff, Bytes.occursIn_iff]
  exact scan_iff word text _ rfl

end Pattern

end StubInsertion
