import RipWire.Fault.Basic

/-!
# Headers

Four octets: a command, a version and two that must be zero. What the zero
octets hold on receipt does not matter, and they are always sent as zero.
-/

namespace RipWire

def Command.ofOctet (octet : UInt8) (offset : Option Int) : Except Fault Command :=
  match Command.ofInt? octet.toNat with
  | some command => .ok command
  | none => .error (.codec (.invalidCommand (.int octet.toNat) offset))

def Version.ofOctet (octet : UInt8) (offset : Option Int) : Except Fault Version :=
  match Version.ofInt? octet.toNat with
  | some version => .ok version
  | none => .error (.codec (.invalidVersion (.int octet.toNat) offset))

namespace Header

def ofCodes (command : Command) (version : Version) : Header :=
  ⟨UInt8.ofNat command.code :: UInt8.ofNat version.code :: reserved⟩

/-- The header in front of a datagram. -/
def unpack : Bytes → Except Fault Header
  | command :: version :: _ :: _ :: _ => do
    let command ← Command.ofOctet command (some 0)
    let version ← Version.ofOctet version (some 1)
    .ok (ofCodes command version)
  | octets => .error (.codec (.shortHeader octets.length))

def command (h : Header) : Except Fault Command :=
  match h.octets[0]? with
  | some octet => Command.ofOctet octet none
  | none => .error .indexRange

def version (h : Header) : Except Fault Version :=
  match h.octets[1]? with
  | some octet => Version.ofOctet octet none
  | none => .error .indexRange

def display (h : Header) : Except Fault Text := do
  let command ← h.command
  let version ← h.version
  .ok (command.name ++ text " " ++ version.name)

def spelled (h : Header) : Except Fault Text := do
  let command ← h.command
  let version ← h.version
  .ok (text "Header(command=" ++ command.name ++ text ", version=" ++ version.name ++ text ")")

theorem command_ofCodes (c : Command) (v : Version) : (ofCodes c v).command = .ok c := by
  cases c <;> rfl

theorem version_ofCodes (c : Command) (v : Version) : (ofCodes c v).version = .ok v := by
  cases v <;> rfl

theorem length_ofCodes (c : Command) (v : Version) : (ofCodes c v).octets.length = size := rfl

end Header

end RipWire
