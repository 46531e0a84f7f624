import RipWire.Argument.Display
import RipWire.Argument.Key
import RipWire.Field.Code

/-!
# Fields from arguments

A command, a version or a family is given as any number that equals its code, or
by its name. The octets of a field exist for an argument that fits it: an address
is an address, a text or a number; a truth value is not a number there.
-/

namespace RipWire

def Command.ofArgument (argument : Argument) (offset : Option Int) : Except Fault Command := do
  let key ← argument.key
  match key.toInt?.bind Command.ofInt? with
  | some command => .ok command
  | none => argument.refused (.codec (.invalidCommand argument offset))

def Version.ofArgument (argument : Argument) (offset : Option Int) : Except Fault Version := do
  let key ← argument.key
  match key.toInt?.bind Version.ofInt? with
  | some version => .ok version
  | none => argument.refused (.codec (.invalidVersion argument offset))

/-- A version chosen by a caller, and not one met on the wire. -/
def Version.known (argument : Argument) : Except Fault Version := do
  let key ← argument.key
  match key.toInt?.bind Version.ofInt? with
  | some version => .ok version
  | none => argument.refused (.unknownVersion argument)

def Family.ofArgument (argument : Argument) : Except Fault Family :=
  match argument.toInt?.bind Family.ofInt? with
  | some family => .ok family
  | none => argument.refused (.codec (.invalidAddressFamily argument none))

def Command.ofName (argument : Argument) : Except Fault Command :=
  match argument with
  | .json (.string name) =>
    match Command.ofName? name with
    | some command => .ok command
    | none => .error (.unknownCommand name)
  | _ => .error (.noText argument.kind)

def Family.ofName (argument : Argument) : Except Fault Family :=
  match argument with
  | .json (.string name) =>
    match Family.ofName? name with
    | some family => .ok family
    | none => .error (.unknownFamily name)
  | _ => .error (.noText argument.kind)

/-! ### Octets of a field -/

/-- The address that an argument denotes. -/
def Argument.address? (argument : Argument) : Except Fault Address :=
  match argument with
  | .address a => .ok a
  | .json (.string t) => (Address.read t).mapError .address
  | _ =>
    match argument.integer? with
    | some n => (Address.ofInt n).mapError .address
    | none => .error (.notAddress argument.kind)

namespace Field

def address (argument : Argument) : Except Fault Bytes :=
  argument.address?.map Address.packed

def metric (argument : Argument) : Except Fault Bytes :=
  match argument.integer? with
  | none => .error (.notMetric argument.kind)
  | some n =>
    if 0 ≤ n ∧ n ≤ Metric.highest then .ok (Bytes.ofNat32 n.toNat)
    else .error (.metricRange argument)

def routeTag (argument : Argument) : Except Fault Bytes :=
  match argument.integer? with
  | none => .error (.notRouteTag argument.kind)
  | some n =>
    if 0 ≤ n ∧ n ≤ 65535 then .ok (Bytes.ofNat16 n.toNat)
    else .error (.routeTagRange argument)

def family (f : Family) : Bytes :=
  Bytes.ofNat16 f.code

/-- The octets of any number in the place of a field. -/
def packed (field : FieldKind) (n : Int) : Except Fault Bytes :=
  match field with
  | .command | .version =>
    if 0 ≤ n ∧ n ≤ 255 then .ok [UInt8.ofNat n.toNat] else .error .octetRange
  | .family => if 0 ≤ n ∧ n ≤ 65535 then .ok (Bytes.ofNat16 n.toNat) else .error .fieldSize
  | .metric =>
    if 0 ≤ n ∧ n ≤ Metric.highest then .ok (Bytes.ofNat32 n.toNat) else .error .fieldSize

theorem length_address {argument : Argument} {octets : Bytes}
    (packed : address argument = .ok octets) : octets.length = 4 := by
  unfold address at packed
  cases found : argument.address? with
  | error fault => rw [found] at packed; cases packed
  | ok a => rw [found] at packed; cases packed; rfl

theorem length_metric {argument : Argument} {octets : Bytes}
    (packed : metric argument = .ok octets) : octets.length = 4 := by
  unfold metric at packed
  split at packed
  · cases packed
  · split at packed
    · cases packed; rfl
    · cases packed

end Field

end RipWire
