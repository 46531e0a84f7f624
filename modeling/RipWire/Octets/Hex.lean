import RipWire.Octets.Basic
import RipWire.Text.Decimal
import RipWire.Text.LetterCase
import RipWire.Text.Quoted

/-!
# Octets in hexadecimal

Two digits for each octet, read in either case. People paste a datagram in any
layout, with colons between the octets and a radix mark in front.
-/

namespace RipWire

namespace Hex

def octet (b : UInt8) : Text :=
  [Text.hexDigit (b.toNat / 16), Text.hexDigit (b.toNat % 16)]

def encode (bytes : Bytes) : Text :=
  bytes.flatMap octet

/-- Groups of some octets, counted from the left, with a space between them. -/
def groups (size : Nat) (bytes : Bytes) : Text :=
  Text.join " " ((chunks size bytes).map encode)

def isDigit (c : CodePoint) : Bool :=
  (Text.hexDigitValue? c).isSome

/-- The octets, or the position of the first code point that is not the digit due there. -/
def decodeFrom (position : Nat) : Text → Except Nat Bytes
  | [] => .ok []
  | [c] => .error (if isDigit c then position + 1 else position)
  | high :: low :: rest =>
    match Text.hexDigitValue? high, Text.hexDigitValue? low with
    | some h, some l => (decodeFrom (position + 2) rest).map (UInt8.ofNat (16 * h + l) :: ·)
    | none, _ => .error position
    | some _, none => .error (position + 1)

def decode (digits : Text) : Except Nat Bytes :=
  decodeFrom 0 digits

end Hex

namespace Payload

/-- One radix mark, in either case, is taken off the front. -/
def withoutMark : Text → Text
  | 48 :: c :: rest => if c = 120 || c = 88 then rest else 48 :: c :: rest
  | t => t

/-- The digits of a payload: no white space, no colon, no radix mark. -/
def normalise (payload : Text) : Text :=
  withoutMark (payload.filter fun c => !Text.isBlank c && c ≠ 58)

/-- Whether a text is a non empty sequence of octets in hexadecimal, a radix mark allowed. -/
def isHex (t : Text) : Bool :=
  !(withoutMark t).isEmpty && (withoutMark t).length % 2 = 0 && (withoutMark t).all Hex.isDigit

end Payload

end RipWire
