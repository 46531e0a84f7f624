import RipWire.Json.Basic
import RipWire.Text.Basic
import RipWire.Text.Decimal

/-!
# Reading JSON

Besides the standard's values the reader takes `NaN` and the two infinities. It
stops at the first fault, which it locates by line, column and position. An
escape of a high surrogate joins an escape of a low one right behind it;
otherwise surrogates stand alone.
-/

namespace RipWire.Json

inductive Complaint where
  | expectingValue
  | expectingName
  | expectingColon
  | expectingComma
  | unterminatedString
  | invalidEscape
  | invalidUnicodeEscape
  | controlCharacter
  | extraData
  | byteOrderMark
deriving DecidableEq

def Complaint.message : Complaint → Text
  | .expectingValue => "Expecting value"
  | .expectingName => "Expecting property name enclosed in double quotes"
  | .expectingColon => "Expecting ':' delimiter"
  | .expectingComma => "Expecting ',' delimiter"
  | .unterminatedString => "Unterminated string starting at"
  | .invalidEscape => "Invalid \\escape"
  | .invalidUnicodeEscape => "Invalid \\uXXXX escape"
  | .controlCharacter => "Invalid control character at"
  | .extraData => "Extra data"
  | .byteOrderMark => "Unexpected UTF-8 BOM (decode using utf-8-sig)"

/-- Why the reader stopped, and what was left of the text at the place to name. -/
inductive Halt where
  | stuck (complaint : Complaint) (rest : Text)
  | longInteger (digits : Nat)
deriving DecidableEq

abbrev Step (α : Type) := Except Halt (α × Text)

def stuck {α : Type} (complaint : Complaint) (rest : Text) : Step α :=
  .error (.stuck complaint rest)

def isSpace (c : CodePoint) : Bool :=
  c = 32 || c = 9 || c = 10 || c = 13

def skipSpace (t : Text) : Text :=
  t.dropWhile isSpace

def simpleEscape? (c : CodePoint) : Option CodePoint :=
  if c = 34 || c = 92 || c = 47 then some c
  else if c = 98 then some 8
  else if c = 102 then some 12
  else if c = 110 then some 10
  else if c = 114 then some 13
  else if c = 116 then some 9
  else none

def unit? (a b c d : CodePoint) : Option Nat := do
  let a ← Text.hexDigitValue? a
  let b ← Text.hexDigitValue? b
  let c ← Text.hexDigitValue? c
  let d ← Text.hexDigitValue? d
  return ((16 * a + b) * 16 + c) * 16 + d

def isHighSurrogate (c : CodePoint) : Bool :=
  0xd800 ≤ c && c ≤ 0xdbff

def isLowSurrogate (c : CodePoint) : Bool :=
  0xdc00 ≤ c && c ≤ 0xdfff

/-- Adds an escaped unit to the reversed text read so far; `joins` says whether its newest code
point is a high surrogate that was just escaped. -/
def withUnit (joins : Bool) (unit : Nat) : Text → Text
  | high :: body =>
    if joins && isLowSurrogate unit then
      (0x10000 + (high - 0xd800) * 0x400 + (unit - 0xdc00)) :: body
    else unit :: high :: body
  | [] => [unit]

/-- Reads behind an opening quote, up to the closing one. `opening` is what was left of the text
at the opening quote. -/
def stringBody (opening : Text) (joins : Bool) (body : Text) : Text → Step Text
  | [] => stuck .unterminatedString opening
  | c :: rest =>
    if c = 34 then .ok (body.reverse, rest)
    else if c = 92 then
      match rest with
      | [] => stuck .unterminatedString opening
      | 117 :: p :: q :: r :: s :: next :: rest =>
        match unit? p q r s with
        | some unit =>
          stringBody opening (isHighSurrogate unit) (withUnit joins unit body) (next :: rest)
        | none => stuck .invalidUnicodeEscape (117 :: p :: q :: r :: s :: next :: rest)
      | e :: rest =>
        if e = 117 then stuck .invalidUnicodeEscape (e :: rest)
        else match simpleEscape? e with
          | some plain => stringBody opening false (plain :: body) rest
          | none => stuck .invalidEscape (c :: e :: rest)
    else if c < 32 then stuck .controlCharacter (c :: rest)
    else stringBody opening false (c :: body) rest

/-- Integers may have so many digits. -/
def integerDigitsLimit : Nat := 4300

structure Numeral where
  negative : Bool
  whole : Text
  fraction : Text
  exponent : Option Int

def Numeral.value (n : Numeral) : Except Halt Json :=
  if n.fraction.isEmpty && n.exponent.isNone then
    if integerDigitsLimit < n.whole.length then .error (.longInteger n.whole.length)
    else
      let magnitude : Int := Text.digitsValue n.whole
      .ok (.int (if n.negative then -magnitude else magnitude))
  else
    let digits := n.whole ++ n.fraction
    .ok (.float (Binary64.ofDecimal n.negative (Text.digitsValue digits)
      (digits.dropWhile (· = 48)).length (n.exponent.getD 0 - n.fraction.length)))

/-- The digits behind a point, when there is at least one. -/
def fractionPart : Text → Text × Text
  | 46 :: rest =>
    let digits := rest.takeWhile Text.isAsciiDigit
    if digits.isEmpty then ([], 46 :: rest) else (digits, rest.dropWhile Text.isAsciiDigit)
  | t => ([], t)

/-- The exponent behind its mark, when it has at least one digit. -/
def exponentPart : Text → Option Int × Text
  | [] => (none, [])
  | c :: rest =>
    if c = 101 || c = 69 then
      let (negative, unsigned) := match rest with
        | 45 :: more => (true, more)
        | 43 :: more => (false, more)
        | more => (false, more)
      let digits := unsigned.takeWhile Text.isAsciiDigit
      if digits.isEmpty then (none, c :: rest)
      else
        let size : Int := Text.digitsValue digits
        (some (if negative then -size else size), unsigned.dropWhile Text.isAsciiDigit)
    else (none, c :: rest)

def wholePart : Text → Option (Text × Text)
  | [] => none
  | c :: rest =>
    if c = 48 then some ([48], rest)
    else if Text.isAsciiDigit c then
      some (c :: rest.takeWhile Text.isAsciiDigit, rest.dropWhile Text.isAsciiDigit)
    else none

def number (t : Text) : Step Json :=
  let (negative, unsigned) := match t with
    | 45 :: rest => (true, rest)
    | rest => (false, rest)
  match wholePart unsigned with
  | none => stuck .expectingValue t
  | some (whole, rest) =>
    let (fraction, rest) := fractionPart rest
    let (exponent, rest) := exponentPart rest
    (Numeral.mk negative whole fraction exponent).value.map fun value => (value, rest)

def words : List (Text × Json) := [
  (text "null", .null),
  (text "true", .bool true),
  (text "false", .bool false),
  (text "NaN", .float .nan),
  (text "Infinity", .float (.infinity false)),
  (text "-Infinity", .float (.infinity true))]

def word? (t : Text) : Option (Json × Text) :=
  words.findSome? fun word =>
    if word.1.isPrefixOf t then some (word.2, t.drop word.1.length) else none

mutual

/-- Reads one value at the start of the text. Each level of a document uses up at most two units
of fuel. -/
def value : Nat → Text → Step Json
  | 0, t => stuck .expectingValue t
  | _ + 1, [] => stuck .expectingValue []
  | fuel + 1, c :: rest =>
    if c = 34 then
      (stringBody (c :: rest) false [] rest).map fun (body, rest) => (.string body, rest)
    else if c = 123 then
      match skipSpace rest with
      | 125 :: rest => .ok (.object [], rest)
      | rest => members fuel [] rest
    else if c = 91 then
      match skipSpace rest with
      | 93 :: rest => .ok (.array [], rest)
      | rest => items fuel [] rest
    else match word? (c :: rest) with
      | some found => .ok found
      | none => number (c :: rest)

/-- Reads the items that are left, in front of the closing bracket; `read` is reversed. -/
def items : Nat → List Json → Text → Step Json
  | 0, _, t => stuck .expectingValue t
  | fuel + 1, read, t =>
    match value fuel t with
    | .error halt => .error halt
    | .ok (item, rest) =>
      match skipSpace rest with
      | 93 :: rest => .ok (.array (item :: read).reverse, rest)
      | 44 :: rest => items fuel (item :: read) (skipSpace rest)
      | rest => stuck .expectingComma rest

/-- Reads the members that are left, in front of the closing brace. -/
def members : Nat → List (Text × Json) → Text → Step Json
  | 0, _, t => stuck .expectingValue t
  | fuel + 1, read, t =>
    match t with
    | 34 :: rest =>
      match stringBody t false [] rest with
      | .error halt => .error halt
      | .ok (name, rest) =>
        match skipSpace rest with
        | 58 :: rest =>
          match value fuel (skipSpace rest) with
          | .error halt => .error halt
          | .ok (member, rest) =>
            match skipSpace rest with
            | 125 :: rest => .ok (.object (insert name member read), rest)
            | 44 :: rest => members fuel (insert name member read) (skipSpace rest)
            | rest => stuck .expectingComma rest
        | rest => stuck .expectingColon rest
    | t => stuck .expectingName t

end

/-- The value that a whole text holds. -/
def document (t : Text) : Except Halt Json :=
  match t with
  | 0xfeff :: _ => .error (.stuck .byteOrderMark t)
  | _ =>
    match value (2 * t.length + 2) (skipSpace t) with
    | .error halt => .error halt
    | .ok (found, rest) =>
      match skipSpace rest with
      | [] => .ok found
      | rest => .error (.stuck .extraData rest)

/-- A fault of a document, or an integer too long to read. -/
inductive ReadError where
  | malformed (complaint : Complaint) (line column position : Nat)
  | longInteger (digits : Nat)
deriving DecidableEq

def ReadError.name : ReadError → Text
  | .malformed .. => "JSONDecodeError"
  | .longInteger _ => "ValueError"

def ReadError.message : ReadError → Text
  | .malformed complaint line column position =>
    complaint.message ++ text ": line " ++ Text.ofNat line ++ text " column " ++
      Text.ofNat column ++ text " (char " ++ Text.ofNat position ++ text ")"
  | .longInteger digits =>
    text "Exceeds the limit (" ++ Text.ofNat integerDigitsLimit ++
      text " digits) for integer string conversion: value has " ++ Text.ofNat digits ++
      text " digits; use sys.set_int_max_str_digits() to increase the limit"

/-- Lines and columns count from one, and only line feeds end a line. -/
def Halt.locate (t : Text) : Halt → ReadError
  | .stuck complaint rest =>
    let before := t.take (t.length - rest.length)
    .malformed complaint (before.count 10 + 1)
      ((before.reverse.takeWhile (· ≠ 10)).length + 1) before.length
  | .longInteger digits => .longInteger digits

def read (t : Text) : Except ReadError Json :=
  (document t).mapError (Halt.locate t)

/-! ### Several documents in one text

A text holds one document, a list of documents, or a document on each line that is not blank. -/

def isBlankLine (line : Text) : Bool :=
  line.all Text.isBlank

/-- The documents on the lines of a text. -/
def onLines (t : Text) : Except ReadError (List Json) :=
  ((Text.splitLines t).filter fun line => !isBlankLine line).mapM read

def documents (t : Text) : Except ReadError (List Json) :=
  match read t.trim with
  | .ok (.array items) => .ok items
  | .ok document => .ok [document]
  | .error (.longInteger digits) => .error (.longInteger digits)
  | .error (.malformed ..) => onLines t.trim

end RipWire.Json
