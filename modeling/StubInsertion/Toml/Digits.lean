import StubInsertion.Decimal.Binary64
import StubInsertion.Toml.Text

/-!
# Digits

* **Characters.** `isDigit` and `isHexDigit` recognise digits; `digitValue` is what one is worth.
* **Numbers.** `ofDigits` is the number that some digits write: each digit multiplies what is ahead
  of it by the base (`ofDigits_concat`). A `Numeral` is such a number while it is being read.
-/

namespace StubInsertion.Toml

/-- A decimal digit. -/
def isDigit (c : Char) : Bool := '0' ≤ c && c ≤ '9'

/-- A digit in any base. -/
def isHexDigit (c : Char) : Bool := (hexDigit? c).isSome

/-- The value of a digit. -/
def digitValue (c : Char) : Nat := (hexDigit? c).getD 0

/-- A number of which some digits are read: `head * weight + tail`. The next digits are gathered in
`tail`, since a long number costs more with each digit that is appended to it. -/
structure Numeral where
  head : Nat
  tail : Nat
  weight : Nat
  deriving DecidableEq, Repr

namespace Numeral

/-- The number as far as it is read. -/
def value (n : Numeral) : Nat := n.head * n.weight + n.tail

/-- The weight from which on the tail joins the head. -/
def maxWeight : Nat := pow2 4096

/-- The number with one more digit. -/
def push (base : Nat) (n : Numeral) (digit : Nat) : Numeral :=
  if n.weight < maxWeight then ⟨n.head, n.tail * base + digit, n.weight * base⟩
  else ⟨n.value, digit, base⟩

theorem value_push (base : Nat) (n : Numeral) (digit : Nat) :
    (n.push base digit).value = n.value * base + digit := by
  unfold push
  split <;> simp [value, Nat.add_mul, Nat.mul_assoc, Nat.add_assoc]

end Numeral

/-- The number with these digits. -/
def ofDigits (base : Nat) (digits : List Char) : Nat :=
  (digits.foldl (fun n c => Numeral.push base n (digitValue c)) ⟨0, 0, 1⟩).value

@[simp] theorem ofDigits_nil (base : Nat) : ofDigits base [] = 0 := rfl

theorem ofDigits_concat (base : Nat) (digits : List Char) (c : Char) :
    ofDigits base (digits ++ [c]) = ofDigits base digits * base + digitValue c := by
  simp [ofDigits, Numeral.value_push]

end StubInsertion.Toml
