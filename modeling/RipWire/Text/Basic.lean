/-!
# Text as code points

A text is its list of code points. Surrogates may stand alone, because a
document can escape them one by one. Literals are written as strings and
coerced. White space is what Unicode calls so, and the four separators U+001C
to U+001F beside it.
-/

namespace RipWire

abbrev CodePoint := Nat

abbrev Text := List CodePoint

def text (s : String) : Text :=
  s.toList.map Char.toNat

instance : Coe String Text := ⟨text⟩

instance : LawfulBEq Text := inferInstance

namespace Text

/-- The pieces, with the separator between two neighbours. -/
def join (separator : Text) (pieces : List Text) : Text :=
  (pieces.intersperse separator).flatten

def padRight (width : Nat) (t : Text) : Text :=
  t ++ List.replicate (width - t.length) 32

def padLeft (width : Nat) (t : Text) : Text :=
  List.replicate (width - t.length) 32 ++ t

/-- The pieces between the occurrences of a code point, always at least one. -/
def cutAt (separator : CodePoint) (t : Text) : List Text :=
  t.foldr
    (fun c pieces =>
      if c = separator then [] :: pieces
      else match pieces with
        | [] => [[c]]
        | piece :: rest => (c :: piece) :: rest)
    [[]]

/-- The text without the code points of a class at both of its ends. -/
def trimBy (dropped : CodePoint → Bool) (t : Text) : Text :=
  ((t.dropWhile dropped).reverse.dropWhile dropped).reverse

/-- The number of octets that a code point takes in UTF-8. -/
def utf8Width (c : CodePoint) : Nat :=
  if c < 0x80 then 1 else if c < 0x800 then 2 else if c < 0x10000 then 3 else 4

def utf8Size (t : Text) : Nat :=
  t.foldl (fun size c => size + utf8Width c) 0

def isAsciiDigit (c : CodePoint) : Bool :=
  48 ≤ c && c ≤ 57

theorem cutAt_cons_ne_nil (separator : CodePoint) (t : Text) : cutAt separator t ≠ [] := by
  induction t with
  | nil => simp [cutAt]
  | cons c t ih =>
    simp only [cutAt, List.foldr_cons]
    split
    · simp
    · split <;> simp

theorem join_cons_cons (separator first second : Text) (rest : List Text) :
    join separator (first :: second :: rest) =
      first ++ separator ++ join separator (second :: rest) := by
  simp [join]

/-! ### White space -/

def isBlank (c : CodePoint) : Bool :=
  (9 ≤ c && c ≤ 13) || (28 ≤ c && c ≤ 32) || c = 0x85 || c = 0xa0 || c = 0x1680 ||
    (0x2000 ≤ c && c ≤ 0x200a) || c = 0x2028 || c = 0x2029 || c = 0x202f || c = 0x205f ||
    c = 0x3000

def trim (t : Text) : Text :=
  t.trimBy isBlank

def trimRight (t : Text) : Text :=
  (t.reverse.dropWhile isBlank).reverse

def isQuoteMark (c : CodePoint) : Bool :=
  c = 34 || c = 39

/-- White space at the ends goes first, then quote marks, of either kind and number. -/
def unquoted (t : Text) : Text :=
  t.trim.trimBy isQuoteMark

/-! ### Lines

A file is read with CR LF and CR taken for LF, and its lines end at LF only. The wider notion, for
documents in one text, ends a line at every code point that Unicode or ASCII gives that role. -/

/-- CR LF and CR become LF. -/
def unixNewlines : Text → Text
  | [] => []
  | 13 :: 10 :: rest => 10 :: unixNewlines rest
  | c :: rest => (if c = 13 then 10 else c) :: unixNewlines rest

/-- The lines of a file, each with its line feed; the last may lack one. -/
def fileLines : Text → List Text
  | [] => []
  | c :: rest =>
    if c = 10 then [c] :: fileLines rest
    else match fileLines rest with
      | [] => [[c]]
      | line :: lines => (c :: line) :: lines

def isLineBreak (c : CodePoint) : Bool :=
  (10 ≤ c && c ≤ 13) || (28 ≤ c && c ≤ 30) || c = 0x85 || c = 0x2028 || c = 0x2029

/-- The lines between the line breaks of the wider notion. A break at the end opens no line. -/
def splitLines : Text → List Text
  | [] => []
  | 13 :: 10 :: rest => [] :: splitLines rest
  | c :: rest =>
    if isLineBreak c then [] :: splitLines rest
    else match splitLines rest with
      | [] => [[c]]
      | line :: lines => (c :: line) :: lines

end Text

end RipWire
