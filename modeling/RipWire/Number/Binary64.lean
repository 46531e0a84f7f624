/-!
# Binary floating point numbers of sixty-four bits

A finite number is a sign, a mantissa below 2^53 and a power of two from 2^-1074
to 2^971. Decimal numbers are read to the nearest one, exact halves to the even
mantissa, and beyond the largest to infinity.
-/

namespace RipWire

inductive Binary64 where
  | nan
  | infinity (negative : Bool)
  | finite (negative : Bool) (mantissa : Nat) (exponent : Int)
deriving DecidableEq

namespace Binary64

/-- The quotient rounded to the nearest integer, an exact half to the even one. -/
def roundQuotient (numerator denominator : Nat) : Nat :=
  let quotient := numerator / denominator
  let rest := 2 * (numerator % denominator)
  if rest < denominator then quotient
  else if denominator < rest then quotient + 1
  else quotient + quotient % 2

/-- A quotient over a power of two, as a quotient of naturals. -/
def scaled (numerator denominator : Nat) (exponent : Int) : Nat × Nat :=
  if 0 ≤ exponent then (numerator, denominator * Nat.pow 2 exponent.toNat)
  else (numerator * Nat.pow 2 (-exponent).toNat, denominator)

def ofQuotient (negative : Bool) (numerator denominator : Nat) : Binary64 :=
  let magnitude : Int := numerator.log2 - denominator.log2
  let low := max (magnitude - 53) (-1074)
  let (n, d) := scaled numerator denominator low
  let exponent := if Nat.pow 2 53 ≤ n / d then low + 1 else low
  let (n, d) := scaled numerator denominator exponent
  let mantissa := roundQuotient n d
  let (mantissa, exponent) :=
    if mantissa = Nat.pow 2 53 then (Nat.pow 2 52, exponent + 1) else (mantissa, exponent)
  if 971 < exponent then .infinity negative else .finite negative mantissa exponent

/-- The number nearest to some digits times a power of ten. The count of the digits bounds the
size, so that numbers far out of range are never computed. -/
def ofDecimal (negative : Bool) (digits count : Nat) (exponent : Int) : Binary64 :=
  if digits = 0 ∨ count + exponent < -330 then .finite negative 0 (-1074)
  else if 310 < count + exponent then .infinity negative
  else if 0 ≤ exponent then ofQuotient negative (digits * Nat.pow 10 exponent.toNat) 1
  else ofQuotient negative digits (Nat.pow 10 (-exponent).toNat)

/-- The integer that a number equals, if there is one. -/
def toInt? : Binary64 → Option Int
  | .finite negative mantissa exponent =>
    let (n, d) := scaled mantissa 1 (-exponent)
    if n % d = 0 then some (if negative then -(n / d : Nat) else (n / d : Nat)) else none
  | _ => none

end Binary64

end RipWire
