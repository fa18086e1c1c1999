import StubInsertion.Decimal.Binary64

/-!
# Decimal literals

Number texts that are read as binary64 numbers. `text?` writes the number that was read: positional
however large it is, with at least one place after the point.
-/

namespace StubInsertion

/-- A decimal number as it is written, or one of the two words that stand for no number. -/
inductive DecimalLiteral
  | finite (negative : Bool) (value : Decimal)
  | infinity (negative : Bool)
  | notANumber
  deriving DecidableEq, Repr

/-- A decimal in positional notation, with a point. -/
def Decimal.positional (d : Decimal) : String :=
  let digits := Nat.toDigits 10 d.digits
  if d.exponent ≥ 0 then
    String.ofList (digits ++ List.replicate d.exponent.toNat '0' ++ ['.', '0'])
  else
    let places := (-d.exponent).toNat
    let padded := List.replicate (places + 1 - digits.length) '0' ++ digits
    String.ofList
      (padded.take (padded.length - places) ++ '.' :: padded.drop (padded.length - places))

namespace DecimalLiteral

/-- The text of the binary64 number nearest to the literal; `none` above the greatest one. -/
def text? : DecimalLiteral → Option String
  | .finite negative value =>
    (Binary64.ofDecimal value).map fun x =>
      (if negative then "-" else "") ++ x.shortest.positional
  | .infinity negative => some (if negative then "-inf" else "inf")
  | .notANumber => some "NaN"

end DecimalLiteral

end StubInsertion
