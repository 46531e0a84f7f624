import RipWire.Datagram.Make

/-!
# Registry of formats

Which format a version of the header selects. A version is given a class of
packets once and keeps it.
-/

namespace RipWire

/-- A class of packets, with its version as the class gives it and the layout of its entries. -/
structure PacketClass where
  name : Text
  version : Argument
  layout : Version

namespace PacketClass

def ofVersion (v : Version) : PacketClass :=
  ⟨(Format.ofVersion v).name, .number .version v.code, v⟩

/-- The format of the packets. No header carries a version that is no number, nor 0. -/
def format (c : PacketClass) : Format :=
  ⟨c.name, c.version.toInt?.getD 0, c.layout⟩

theorem format_ofVersion (v : Version) : (ofVersion v).format = Format.ofVersion v := by
  cases v <;> rfl

theorem layout_ofVersion (v : Version) : (ofVersion v).layout = v := rfl

end PacketClass

structure Registry where
  entries : List (Key × PacketClass)

namespace Registry

def initial : Registry :=
  ⟨[(.integer 1, PacketClass.ofVersion .v1), (.integer 2, PacketClass.ofVersion .v2)]⟩

def find? (r : Registry) (key : Key) : Option PacketClass :=
  (r.entries.find? fun entry => entry.1 = key).map Prod.snd

def register (r : Registry) (c : PacketClass) : Except Fault Registry := do
  let key ← c.version.key
  match r.find? key with
  | some _ => .error .versionTaken
  | none => .ok ⟨r.entries ++ [(key, c)]⟩

def classOf (r : Registry) (version : Argument) : Except Fault PacketClass := do
  let key ← version.key
  match r.find? key with
  | some c => .ok c
  | none => version.refused (.versionFree version)

/-- The registry after a class was offered to it. One that is refused leaves it as it was. -/
def offered (r : Registry) (c : PacketClass) : Registry :=
  match r.register c with
  | .ok added => added
  | .error _ => r

def offeredAll (r : Registry) (classes : List PacketClass) : Registry :=
  classes.foldl offered r

theorem offered_of_error {r : Registry} {c : PacketClass} {fault : Fault}
    (h : r.register c = .error fault) : r.offered c = r := by
  unfold offered
  rw [h]

/-- A key that was free is given its class, and every other key keeps what it had. -/
theorem find?_append (r : Registry) (key other : Key) (c : PacketClass) :
    find? ⟨r.entries ++ [(key, c)]⟩ other =
      (r.find? other).or (if key = other then some c else none) := by
  unfold find?
  rw [List.find?_append, Option.map_or]
  by_cases h : key = other <;> simp [h]

end Registry

end RipWire
