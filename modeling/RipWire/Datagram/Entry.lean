import RipWire.Datagram.Header

/-!
# Entries

Twenty octets for a route. The two layouts share the places of the family, the
address and the metric:

    octets   version 1   version 2
     0 -  1  family      family
     2 -  3  zero        route tag
     4 -  7  address     address
     8 - 11  zero        subnet mask
    12 - 15  zero        next hop
    16 - 19  metric      metric

The zero octets of the first layout do not matter on receipt, and are always
sent as zero.
-/

namespace RipWire

/-- The family in the first two octets of a record. -/
def Family.ofOctets (offset : Option Int) : Bytes → Except Fault Family
  | high :: low :: _ =>
    match Family.ofInt? (Bytes.toNat [high, low]) with
    | some family => .ok family
    | none => .error (.codec (.invalidAddressFamily (.int (Bytes.toNat [high, low])) offset))
  | octets => .error (.familySize octets.length)

namespace Entry

def reserved (size : Nat) : Bytes :=
  List.replicate size 0

/-- The octets of a record with the ones that a layout reserves set to zero. -/
def canonical (layout : Version) (record : Bytes) : Bytes :=
  match layout with
  | .v1 =>
    record.field 0 2 ++ reserved 2 ++ record.field 4 4 ++ reserved 8 ++ record.field 16 4
  | .v2 => record

/-- The entry in a record that starts at an offset. -/
def unpack (layout : Version) (record : Bytes) (offset : Int) : Except Fault Entry :=
  if record.length ≠ size then .error (.entrySize record.length)
  else do
    let _ ← Family.ofOctets (some offset) record
    .ok ⟨layout, canonical layout record⟩

def family (e : Entry) : Except Fault Family :=
  Family.ofOctets none (e.octets.field 0 2)

def addressAt (offset : Nat) (e : Entry) : Except Fault Address :=
  match Address.ofBytes (e.octets.field offset 4) with
  | .ok address => .ok address
  | .error fault => .error (.address fault)

def numberAt (offset width : Nat) (e : Entry) : Except Fault Nat :=
  if (e.octets.field offset width).length = width then .ok (e.octets.field offset width).toNat
  else .error .fieldSize

def address (e : Entry) : Except Fault Address := e.addressAt 4

def subnetMask (e : Entry) : Except Fault Address := e.addressAt 8

def nextHop (e : Entry) : Except Fault Address := e.addressAt 12

def routeTag (e : Entry) : Except Fault Nat := e.numberAt 2 2

def metric (e : Entry) : Except Fault Nat := e.numberAt 16 4

def display (e : Entry) : Except Fault Text := do
  let family ← e.family
  let address ← e.address
  match e.version with
  | .v1 =>
    let metric ← e.metric
    .ok (family.name ++ text " " ++ address.render ++ text " metric " ++ Text.ofNat metric)
  | .v2 =>
    let mask ← e.subnetMask
    let hop ← e.nextHop
    let metric ← e.metric
    let tag ← e.routeTag
    .ok (family.name ++ text " " ++ address.render ++ text "/" ++ mask.render ++
      text " next-hop " ++ hop.render ++ text " metric " ++ Text.ofNat metric ++
      text " tag " ++ Text.ofNat tag)

def spelled (e : Entry) : Except Fault Text := do
  let family ← e.family
  match e.version with
  | .v1 =>
    let address ← e.address
    let metric ← e.metric
    .ok (text "EntryV1(address_family_identifier=" ++ family.name ++
      text ", ip_address=" ++ address.render ++ text ", metric=" ++ Text.ofNat metric ++ text ")")
  | .v2 =>
    let tag ← e.routeTag
    let address ← e.address
    let mask ← e.subnetMask
    let hop ← e.nextHop
    let metric ← e.metric
    .ok (text "EntryV2(address_family_identifier=" ++ family.name ++
      text ", route_tag=" ++ Text.ofNat tag ++ text ", ip_address=" ++ address.render ++
      text ", subnet_mask=" ++ mask.render ++ text ", next_hop=" ++ hop.render ++
      text ", metric=" ++ Text.ofNat metric ++ text ")")

theorem length_canonical {layout : Version} {record : Bytes} (whole : record.length = size) :
    (canonical layout record).length = size := by
  cases layout <;> simp_all [canonical, reserved, Bytes.field, size]

end Entry

end RipWire
