/-!
The double-precision number nearest to a decimal one, of two equally near the one with an even last
bit.
-/

namespace ChipEight.Binary64

/-- A quotient rounded to the nearest number, a half to the even one. -/
def roundQuotient (num den : Nat) : Nat :=
  let quotient := num / den
  let twice := 2 * (num % den)
  if den < twice || (twice == den && quotient % 2 == 1) then quotient + 1 else quotient

/-- The exponent of the largest power of two that is at most a quotient of positive numbers. -/
def log2Quotient (num den : Nat) : Int :=
  let estimate : Int := (num.log2 : Int) - den.log2
  let reached :=
    if 0 ≤ estimate then den <<< estimate.toNat ≤ num else den ≤ num <<< (-estimate).toNat
  if reached then estimate else estimate - 1

def infinityBits : Nat := 0x7FF <<< 52

/-- The bits of the number nearest to a quotient of positive numbers. The last place of the result
is worth `2 ^ unit`, at least `2 ^ (-1074)`. -/
def quotientBits (num den : Nat) : Nat :=
  let unit : Int := max (log2Quotient num den - 52) (-1074)
  let mantissa :=
    if 0 ≤ unit then roundQuotient num (den <<< unit.toNat)
    else roundQuotient (num <<< (-unit).toNat) den
  min (((unit + 1074).toNat <<< 52) + mantissa) infinityBits

/-- The bits of the number nearest to `significand * 10 ^ exponent`. Exponents far outside the
range of the format are answered without computing the power. -/
def decimalBits (significand : Nat) (exponent : Int) : Nat :=
  if significand = 0 then 0
  else if 0 ≤ exponent then
    if 310 < exponent then infinityBits
    else quotientBits (significand * Nat.pow 10 exponent.toNat) 1
  else
    let scale := (-exponent).toNat
    if significand.log2 + 1100 < 3 * scale then 0 else quotientBits significand (Nat.pow 10 scale)

/-- A number of the format from its sign and the bits of its magnitude. -/
def ofMagnitude (negative : Bool) (magnitude : Nat) : Float :=
  Float.ofBits (UInt64.ofNat (if negative then magnitude + 1 <<< 63 else magnitude))

end ChipEight.Binary64
