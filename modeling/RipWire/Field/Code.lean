import RipWire.Octets.Basic
import RipWire.Text.Decimal
import RipWire.Text.LetterCase

/-!
# Coded fields and metrics

The commands, versions and address families of the protocol, with the numbers
that stand for them and their names. A route costs 1 to 15, and 16 stands for
infinity; the field itself holds any number of thirty-two bits.
-/

namespace RipWire

inductive Command where
  | request
  | response
deriving DecidableEq

inductive Version where
  | v1
  | v2
deriving DecidableEq

/-- Family 0 belongs to the request for a whole table, family 2 to every route. -/
inductive Family where
  | unspecified
  | ip
deriving DecidableEq

namespace Command

def code : Command → Nat
  | .request => 1
  | .response => 2

def name : Command → Text
  | .request => "request"
  | .response => "response"

def ofInt? (n : Int) : Option Command :=
  if n = 1 then some .request else if n = 2 then some .response else none

/-- Names are read in any letter case. -/
def ofName? (t : Text) : Option Command :=
  if t.lower = text "request" then some .request
  else if t.lower = text "response" then some .response
  else none

/-- The name of any number in the place of a command. -/
def nameOf (n : Int) : Text :=
  match ofInt? n with
  | some c => c.name
  | none => text "unknown-command-" ++ Text.ofInt n

theorem ofInt?_code (c : Command) : ofInt? c.code = some c := by cases c <;> rfl

theorem code_of_ofInt? {n : Int} {c : Command} (h : ofInt? n = some c) : n = c.code := by
  unfold ofInt? at h
  split at h
  · next isFirst => cases h; exact isFirst
  · split at h
    · next isSecond => cases h; exact isSecond
    · cases h

end Command

namespace Version

def code : Version → Nat
  | .v1 => 1
  | .v2 => 2

def ofInt? (n : Int) : Option Version :=
  if n = 1 then some .v1 else if n = 2 then some .v2 else none

def nameOf (n : Int) : Text :=
  118 :: Text.ofInt n

def name (v : Version) : Text :=
  nameOf v.code

theorem ofInt?_code (v : Version) : ofInt? v.code = some v := by cases v <;> rfl

theorem code_of_ofInt? {n : Int} {v : Version} (h : ofInt? n = some v) : n = v.code := by
  unfold ofInt? at h
  split at h
  · next isFirst => cases h; exact isFirst
  · split at h
    · next isSecond => cases h; exact isSecond
    · cases h

end Version

namespace Family

def code : Family → Nat
  | .unspecified => 0
  | .ip => 2

def name : Family → Text
  | .unspecified => "unspecified"
  | .ip => "ip"

def ofInt? (n : Int) : Option Family :=
  if n = 0 then some .unspecified else if n = 2 then some .ip else none

/-- Names are read in any letter case; the address family of routes has two. -/
def ofName? (t : Text) : Option Family :=
  if t.lower = text "unspecified" then some .unspecified
  else if t.lower = text "ip" ∨ t.lower = text "ipv4" then some .ip
  else none

def nameOf (n : Int) : Text :=
  match ofInt? n with
  | some f => f.name
  | none => text "unknown-afi-" ++ Text.hexOfInt n

theorem ofInt?_code (f : Family) : ofInt? f.code = some f := by cases f <;> rfl

theorem code_of_ofInt? {n : Int} {f : Family} (h : ofInt? n = some f) : n = f.code := by
  unfold ofInt? at h
  split at h
  · next isFirst => cases h; exact isFirst
  · split at h
    · next isSecond => cases h; exact isSecond
    · cases h

theorem ofName?_name (f : Family) : ofName? f.name = some f := by cases f <;> decide

end Family

namespace Metric

def infinity : Int := 16

def highest : Int := 4294967295

def size : Nat := 4

def isInfinite (n : Int) : Bool :=
  infinity ≤ n

def isRoutingValue (n : Int) : Bool :=
  1 ≤ n && n ≤ infinity

end Metric

end RipWire
