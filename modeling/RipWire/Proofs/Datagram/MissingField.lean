import RipWire.Fault.Message
import RipWire.Proofs.Datagram.FirstCheck
import RipWire.Proofs.Datagram.RoundTrip

/-!
# Packets, faults and missing fields

Every document is a packet that can be written, or it is refused with a fault of a
value or of a kind of value. Only the checks that look for a member complain about
a missing field, and no other fault is worded like that.
-/

namespace RipWire

namespace Document

/-- The names of the errors of a wrong value and of a wrong kind of value that documents have. -/
def faultNames : List Text := [
  text "ValueError", text "AddressValueError", text "InvalidCommand",
  text "InvalidAddressFamily", text "TooManyEntries", text "TypeError"]

theorem ItemCheck.Raises.name_mem {check : ItemCheck} {fault : Fault} (h : check.Raises fault) :
    fault.name ∈ faultNames := by
  cases h <;> simp [faultNames, Fault.name, Fault.faultClass, CodecError.name]

theorem Check.Raises.name_mem {check : Check} {fault : Fault} (h : check.Raises fault) :
    fault.name ∈ faultNames := by
  cases h with
  | item h => exact h.name_mem
  | _ => simp [faultNames, Fault.name, Fault.faultClass, CodecError.name, CodecError.overfull]

theorem message_address_ne (fault : AddressFault) (name : Text) :
    fault.message ≠ text "missing field " ++ name := by
  cases fault with
  | negative value => exact Text.ofInt_append_ne (by decide) (by decide) _ _
  | beyond value => exact Text.ofInt_append_ne (by decide) (by decide) _ _
  | size bytes => simp [AddressFault.message, Text.quotedOctets, text]
  | _ => simp [AddressFault.message, text]

theorem message_overfull_ne (count : Nat) (name : Text) :
    (Fault.codec (.overfull count none)).message ≠ text "missing field " ++ name :=
  Text.ofInt_append_ne (n := count) (by decide) (by decide) _ _

theorem ItemCheck.Raises.missing?_of_message {check : ItemCheck} {fault : Fault}
    (h : check.Raises fault) {name : Text} (hm : fault.message = text "missing field " ++ name) :
    check.missing? = some name := by
  cases h with
  | hasAddress =>
      rw [← List.append_cancel_left hm]
      rfl
  | hasMetric =>
      rw [← List.append_cancel_left hm]
      rfl
  | address fault => exact (message_address_ne fault name hm).elim
  | _ => simp [Fault.message, CodecError.message, CodecError.offset, CodecError.wording, text] at hm

theorem Check.Raises.missing?_of_message {check : Check} {fault : Fault} (h : check.Raises fault)
    {name : Text} (hm : fault.message = text "missing field " ++ name) :
    check.missing? = some name := by
  cases h with
  | hasVersion =>
      rw [← List.append_cancel_left hm]
      rfl
  | hasCommand =>
      rw [← List.append_cancel_left hm]
      rfl
  | item h => exact h.missing?_of_message hm
  | fits count => exact (message_overfull_ne count name hm).elim
  | _ => simp [Fault.message, CodecError.message, CodecError.offset, CodecError.wording, text] at hm

theorem ItemCheck.Raises.eq_missingField {check : ItemCheck} {fault : Fault}
    (h : check.Raises fault) {name : Text} (hname : check.missing? = some name) :
    fault = .missingField name := by
  cases h <;> cases hname <;> rfl

theorem Check.Raises.eq_missingField {check : Check} {fault : Fault} (h : check.Raises fault)
    {name : Text} (hname : check.missing? = some name) : fault = .missingField name := by
  cases h with
  | item h => exact h.eq_missingField hname
  | _ => cases hname <;> rfl

/-- What comes of a document: a packet that can be written, or a fault of a value or of a kind of
value, decided by the check that fails first. It is a missing field when that check looks for a
member, and no other fault is worded like one. -/
structure Outcome (document : Json) : Prop where
  settled : (∃ p octets, Packet.ofJson document = .ok p ∧ Packet.write (.packet p) = .ok octets) ∨
    ∃ check fault, Fails document check ∧ Packet.ofJson document = .error fault ∧
      fault.name ∈ faultNames
  decided : ∀ check, Fails document check →
    ∃ fault, Packet.ofJson document = .error fault ∧ check.Raises fault
  missing : ∀ name, Packet.ofJson document = .error (.missingField name) ↔
    ∃ check, Fails document check ∧ check.missing? = some name
  worded : ∀ fault name, Packet.ofJson document = .error fault →
    fault.message = text "missing field " ++ name → fault = .missingField name

end Document

namespace Packet

open Document

theorem ofJson_outcome (document : Json) : Outcome document where
  settled := by
    cases h : ofJson document with
    | ok p =>
        obtain ⟨version, hwell⟩ := ofDocument_wellFormed h
        exact .inl ⟨p, p.octets, rfl, write_of_wellFormed hwell⟩
    | error fault =>
        obtain ⟨check, hfails, hraises⟩ := exists_fails_of_ofJson h
        exact .inr ⟨check, fault, hfails, rfl, hraises.name_mem⟩
  decided := fun _ hfails => hfails.raises
  missing := by
    intro name
    constructor
    · intro h
      obtain ⟨check, hfails, hraises⟩ := exists_fails_of_ofJson h
      exact ⟨check, hfails, hraises.missing?_of_message rfl⟩
    · rintro ⟨check, hfails, hname⟩
      obtain ⟨fault, h, hraises⟩ := hfails.raises
      rw [h, hraises.eq_missingField hname]
  worded := by
    intro fault name h hm
    obtain ⟨check, -, hraises⟩ := exists_fails_of_ofJson h
    exact hraises.eq_missingField (hraises.missing?_of_message hm)

end Packet

end RipWire
