import ApiModel.Text.Basic

/-!
# Decimal numbers

The range of 64-bit floating point for numbers that are written in decimal.
-/

namespace ApiModel.Text

/-- The value of decimal digits; other characters are passed over. -/
def decimalValue (digits : List Char) : Nat :=
  (digits.filter Char.isDigit).foldl (fun n d => n * 10 + (d.toNat - '0'.toNat)) 0

/-- The least number that rounds to infinity: half a unit above the greatest finite one. -/
def overflowBound : Nat := Nat.pow 2 1024 - Nat.pow 2 970

/-- Whether a number times a power of ten rounds to a finite one. Beyond a power of 400 every number
but zero is too great, and below one of -100000 every number of so many digits is small enough. -/
def isFinite (significand : Nat) (exponent : Int) : Bool :=
  if significand == 0 then true
  else if 400 < exponent then false
  else if exponent < -100000 then true
  else if 0 ≤ exponent then significand * Nat.pow 10 exponent.toNat < overflowBound
  else significand < overflowBound * Nat.pow 10 (-exponent).toNat

end ApiModel.Text
