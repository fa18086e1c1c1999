/-!
# Decimal fractions and binary64

Exact arithmetic between decimal numbers and the finite numbers of binary64; no floating-point
operation is involved. All numbers here are non-negative: signs are kept elsewhere.

* **Rounding.** `ofDecimal` gives the nearest binary64 number, a tie going to the even significand.
* **Shortest.** `shortest` gives the fewest decimal digits that are nearer to the number than to any
  other; of two such decimals the nearer one, and of two equally near the greater.
-/

namespace StubInsertion

/-- The number `digits · 10 ^ exponent`. -/
structure Decimal where
  digits : Nat
  exponent : Int
  deriving DecidableEq, Repr

/-- The number `significand · 2 ^ exponent`. -/
structure Binary64 where
  significand : Nat
  exponent : Int
  deriving DecidableEq, Repr

/-- The powers of two. -/
def pow2 (n : Nat) : Nat := Nat.pow 2 n

/-- The powers of ten. -/
def pow10 (n : Nat) : Nat := Nat.pow 10 n

/-- `num / den` to the nearest whole number, a half to the even one. -/
def roundHalfEven (num den : Nat) : Nat :=
  let down := num / den
  let rest := num % den
  if 2 * rest < den then down
  else if den < 2 * rest then down + 1
  else down + down % 2

/-- The number of decimal digits. -/
def digitCount (n : Nat) : Nat := (Nat.toDigits 10 n).length

namespace Binary64

/-- The exponent of the subnormal numbers and of the smallest normal ones. -/
def minExponent : Int := -1074

/-- The exponent of the greatest numbers. -/
def maxExponent : Int := 971

/-- The binary exponent of `num / den`: the greatest `e` with `2 ^ e ≤ num / den`. -/
def binaryExponent (num den : Nat) : Int :=
  let e : Int := (Nat.log2 num : Int) - Nat.log2 den
  if den * pow2 e.toNat ≤ num * pow2 (-e).toNat then e else e - 1

/-- The nearest number to `num / den`; `none` above the greatest one. -/
def ofRatio (num den : Nat) : Option Binary64 :=
  let q := max (binaryExponent num den - 52) minExponent
  let m := roundHalfEven (num * pow2 (-q).toNat) (den * pow2 q.toNat)
  let rounded : Binary64 := if m = pow2 53 then ⟨pow2 52, q + 1⟩ else ⟨m, q⟩
  if rounded.exponent > maxExponent then none else some rounded

/-- The nearest number to a decimal; `none` above the greatest one. -/
def ofDecimal (d : Decimal) : Option Binary64 :=
  if d.digits = 0 then some ⟨0, minExponent⟩
  else ofRatio (d.digits * pow10 d.exponent.toNat) (pow10 (-d.exponent).toNat)

/-- The decimal exponent of `num / den`: the greatest `e` with `10 ^ e ≤ num / den`. -/
def decimalExponent (num den : Nat) : Int :=
  let e : Int := (digitCount num : Int) - digitCount den
  if den * pow10 e.toNat ≤ num * pow10 (-e).toNat then e else e - 1

/-- Does the decimal lie among the numbers that round to `x`? A bound itself does if the significand
is even. All is measured in quarters of the distance between neighbours. -/
def isNear (x : Binary64) (d : Decimal) : Bool :=
  let low := if x.significand = pow2 52 ∧ x.exponent > minExponent then 4 * x.significand - 1
    else 4 * x.significand - 2
  let high := 4 * x.significand + 2
  let unit := x.exponent - 2
  let num := d.digits * pow10 d.exponent.toNat * pow2 (-unit).toNat
  let den := pow10 (-d.exponent).toNat * pow2 unit.toNat
  if x.significand % 2 = 0 then low * den ≤ num && num ≤ high * den
  else low * den < num && num < high * den

/-- The nearest decimal with `count` digits that is near `x`, if one of the two neighbours is. -/
def withDigits? (x : Binary64) (num den count : Nat) : Option Decimal :=
  let e := decimalExponent num den - count + 1
  let num := num * pow10 (-e).toNat
  let den := den * pow10 e.toNat
  let down : Decimal := ⟨num / den, e⟩
  let up : Decimal := if num / den + 1 = pow10 count then ⟨1, e + count⟩ else ⟨num / den + 1, e⟩
  match x.isNear down, x.isNear up with
  | true, true => some (if 2 * (num % den) < den then down else up)
  | true, false => some down
  | false, true => some up
  | false, false => none

/-- The decimal with the fewest digits that is near `x`; seventeen are always enough. -/
def shortest (x : Binary64) : Decimal :=
  if x.significand = 0 then ⟨0, 0⟩
  else
    let num := x.significand * pow2 x.exponent.toNat
    let den := pow2 (-x.exponent).toNat
    ((List.range 17).findSome? fun k => x.withDigits? num den (k + 1)).getD ⟨num / den, 0⟩

end Binary64

end StubInsertion
