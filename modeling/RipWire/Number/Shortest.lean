import RipWire.Number.Binary64
import RipWire.Text.Decimal

/-!
# Shortest decimal text

The fewest decimal digits that read back as the same number, the nearest to it
among those, written positionally from 1e-4 up to 1e16 and with an exponent
outside.
-/

namespace RipWire.Binary64

def digitCount (n : Nat) : Nat :=
  (Nat.toDigits 10 n).length

/-- The exponent of the first decimal digit of a positive quotient. -/
def decimalMagnitude (numerator denominator : Nat) : Int :=
  if denominator ≤ numerator then digitCount (numerator / denominator) - 1
  else -(digitCount ((denominator + numerator - 1) / numerator - 1) : Int)

/-- The numbers between the two bounds read back as the number that they surround. -/
structure Interval where
  low : Nat × Nat
  high : Nat × Nat
  closed : Bool

/-- The bounds lie halfway to the two neighbours, and belong to an even mantissa. -/
def interval (mantissa : Nat) (exponent : Int) : Interval where
  low :=
    if mantissa = Nat.pow 2 52 ∧ -1074 < exponent then scaled (4 * mantissa - 1) 1 (2 - exponent)
    else scaled (2 * mantissa - 1) 1 (1 - exponent)
  high := scaled (2 * mantissa + 1) 1 (1 - exponent)
  closed := mantissa % 2 = 0

def Interval.contains (i : Interval) (numerator denominator : Nat) : Bool :=
  let aboveLow := i.low.1 * denominator
  let belowHigh := i.high.1 * denominator
  if i.closed then aboveLow ≤ numerator * i.low.2 && numerator * i.high.2 ≤ belowHigh
  else aboveLow < numerator * i.low.2 && numerator * i.high.2 < belowHigh

/-- Tries the two neighbours of a quotient on the grid of a number of digits. -/
def onGrid? (i : Interval) (numerator denominator : Nat) (unit : Int) : Option Nat :=
  let (n, d) :=
    if 0 ≤ unit then (numerator, denominator * Nat.pow 10 unit.toNat)
    else (numerator * Nat.pow 10 (-unit).toNat, denominator)
  let below := n / d
  let fits (digits : Nat) : Bool :=
    if 0 ≤ unit then i.contains (digits * Nat.pow 10 unit.toNat) 1
    else i.contains digits (Nat.pow 10 (-unit).toNat)
  let nearest := roundQuotient n d
  if fits below && fits (below + 1) then some nearest
  else if fits below then some below
  else if fits (below + 1) then some (below + 1)
  else none

/-- The digits and the power of ten of the shortest decimal of a positive number. -/
def shortest (mantissa : Nat) (exponent : Int) : Nat × Int :=
  let (n, d) := scaled mantissa 1 (-exponent)
  let magnitude := decimalMagnitude n d
  let i := interval mantissa exponent
  let found := (List.range 17).findSome? fun (more : Nat) =>
    (onGrid? i n d (magnitude - more)).map fun digits => (digits, magnitude - (more : Int))
  match found with
  | none => (0, 0)
  | some (digits, unit) => if digits % 10 = 0 then (digits / 10, unit + 1) else (digits, unit)

/-- Digits with a decimal point so many places behind the first one's left. -/
def placed (digits : Text) (point : Int) : Text :=
  if -4 < point ∧ point ≤ 16 then
    if point ≤ 0 then text "0." ++ List.replicate (-point).toNat 48 ++ digits
    else if digits.length ≤ point.toNat then
      digits ++ List.replicate (point.toNat - digits.length) 48 ++ text ".0"
    else digits.take point.toNat ++ text "." ++ digits.drop point.toNat
  else
    let power := point - 1
    let size := Text.ofNat power.natAbs
    let fraction : Text := if digits.length ≤ 1 then [] else 46 :: digits.drop 1
    let mark : Text := if power < 0 then "e-" else "e+"
    digits.take 1 ++ fraction ++ mark ++ List.replicate (2 - size.length) 48 ++ size

def render : Binary64 → Text
  | .nan => "nan"
  | .infinity negative => if negative then "-inf" else "inf"
  | .finite negative mantissa exponent =>
    let sign : Text := if negative then "-" else ""
    if mantissa = 0 then sign ++ "0.0"
    else
      let (digits, unit) := shortest mantissa exponent
      let digits := Text.ofNat digits
      sign ++ placed digits (digits.length + unit)

end RipWire.Binary64
