import RipWire.Octets.Basic
import RipWire.Text.Decimal
import RipWire.Text.Quoted

/-!
# IPv4 addresses

Four octets, written as four decimal numbers between points. The reader takes
exactly the written form: no sign, no leading zero, no other digits.
-/

namespace RipWire

structure Address where
  first : UInt8
  second : UInt8
  third : UInt8
  fourth : UInt8
deriving DecidableEq

inductive AddressFault where
  | empty
  | slash (whole : Text)
  | octetCount (whole : Text)
  | emptyOctet (whole : Text)
  | notDigits (part whole : Text)
  | longOctet (part whole : Text)
  | leadingZero (part whole : Text)
  | largeOctet (value : Nat) (whole : Text)
  | negative (value : Int)
  | beyond (value : Int)
  | size (bytes : Bytes)
deriving DecidableEq

def AddressFault.message : AddressFault → Text
  | .empty => "Address cannot be empty"
  | .slash whole => text "Unexpected '/' in " ++ whole.quoted
  | .octetCount whole => text "Expected 4 octets in " ++ whole.quoted
  | .emptyOctet whole => text "Empty octet not permitted in " ++ whole.quoted
  | .notDigits part whole =>
    text "Only decimal digits permitted in " ++ part.quoted ++ text " in " ++ whole.quoted
  | .longOctet part whole =>
    text "At most 3 characters permitted in " ++ part.quoted ++ text " in " ++ whole.quoted
  | .leadingZero part whole =>
    text "Leading zeros are not permitted in " ++ part.quoted ++ text " in " ++ whole.quoted
  | .largeOctet value whole =>
    text "Octet " ++ Text.ofNat value ++ text " (> 255) not permitted in " ++ whole.quoted
  | .negative value =>
    Text.ofInt value ++ text " (< 0) is not permitted as an IPv4 address"
  | .beyond value =>
    Text.ofInt value ++ text " (>= 2**32) is not permitted as an IPv4 address"
  | .size bytes =>
    Text.quotedOctets bytes ++ text " (len " ++ Text.ofNat bytes.length ++
      text " != 4) is not permitted as an IPv4 address"

namespace Address

def packed (a : Address) : Bytes :=
  [a.first, a.second, a.third, a.fourth]

def ofBytes : Bytes → Except AddressFault Address
  | [a, b, c, d] => .ok ⟨a, b, c, d⟩
  | bytes => .error (.size bytes)

def ofInt (n : Int) : Except AddressFault Address :=
  if n < 0 then .error (.negative n)
  else if 4294967296 ≤ n then .error (.beyond n)
  else ofBytes (Bytes.ofNat32 n.toNat)

def octetText (octet : UInt8) : Text :=
  Text.ofNat octet.toNat

def render (a : Address) : Text :=
  octetText a.first ++ 46 :: octetText a.second ++ 46 :: octetText a.third ++
    46 :: octetText a.fourth

def readOctet (whole part : Text) : Except AddressFault UInt8 :=
  if part.isEmpty then .error (.emptyOctet whole)
  else if !part.all Text.isAsciiDigit then .error (.notDigits part whole)
  else if 3 < part.length then .error (.longOctet part whole)
  else if part ≠ [48] ∧ part.head? = some 48 then .error (.leadingZero part whole)
  else if 255 < Text.digitsValue part then .error (.largeOctet (Text.digitsValue part) whole)
  else .ok (UInt8.ofNat (Text.digitsValue part))

def read (t : Text) : Except AddressFault Address :=
  if t.contains 47 then .error (.slash t)
  else if t.isEmpty then .error .empty
  else match t.cutAt 46 with
    | [a, b, c, d] => do
      let a ← readOctet t a
      let b ← readOctet t b
      let c ← readOctet t c
      let d ← readOctet t d
      return ⟨a, b, c, d⟩
    | _ => .error (.octetCount t)

theorem ofBytes_packed (a : Address) : ofBytes a.packed = .ok a := rfl

theorem packed_length (a : Address) : a.packed.length = 4 := rfl

end Address

end RipWire
