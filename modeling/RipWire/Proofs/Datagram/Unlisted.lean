import RipWire.Proofs.Datagram.FirstCheck

/-!
# Entries that are no array

The entries of a document are gone through whatever they are. What can not be gone
through is refused for its kind, and so is the first code point of a text or the
first name of an object, which is no entry. Only a text and an object without any
pass for a list without entries.
-/

namespace RipWire

open Checks

namespace Document

/-- The document is refused for a value of a wrong kind. -/
def RefusedForKind (members : List (Text × Json)) : Prop :=
  ∃ fault, Packet.ofJson (.object members) = .error fault ∧ fault.name = text "TypeError"

section Heads

variable {members : List (Text × Json)} {version : Version} {command : Command}
  (hversion : HasVersion members version) (hcommand : HasCommand members command)

include hversion hcommand

theorem refused_of_not_iterates
    (never : ∀ items, ¬ Iterates (Json.find? (text "entries") members) items) :
    RefusedForKind members := by
  obtain ⟨fault, h, hraises⟩ := (Fails.iterable hversion hcommand never).raises
  cases hraises with
  | iterable value => exact ⟨_, h, rfl⟩

theorem refused_of_iterates_text {t : Text} {behind : List Json}
    (hiterates : Iterates (Json.find? (text "entries") members) (.string t :: behind)) :
    RefusedForKind members := by
  have hfails : Fails (.object members) (.item ([] : List Json).length .object) :=
    .item hversion hcommand hiterates (by simp) (.object nofun)
  obtain ⟨fault, h, hraises⟩ := hfails.raises
  cases hraises with
  | item hraises =>
      cases hraises with
      | object value => exact ⟨_, h, rfl⟩

theorem ofJson_of_iterates_nil (hiterates : Iterates (Json.find? (text "entries") members) []) :
    Packet.ofJson (.object members) = .ok (Packet.carrying command version []) :=
  (Packet.ofJson_ok_iff hiterates).mpr
    ⟨version, command, hversion, hcommand, .nil, Nat.zero_le 25, rfl⟩

end Heads

end Document

namespace Packet

open Document

theorem ofJson_of_not_array {members : List (Text × Json)} {version : Version} {command : Command}
    {value : Json} (hversion : HasVersion members version) (hcommand : HasCommand members command)
    (hfound : Json.find? (text "entries") members = some value)
    (hother : ∀ items, value ≠ .array items) :
    (RefusedForKind members ↔ value ≠ .string [] ∧ value ≠ .object []) ∧
      (value = .string [] ∨ value = .object [] →
        ofJson (.object members) = .ok (carrying command version [])) := by
  have hempty (h : value = .string [] ∨ value = .object []) :
      ofJson (.object members) = .ok (carrying command version []) := by
    refine ofJson_of_iterates_nil hversion hcommand ?_
    rw [hfound]
    rcases h with rfl | rfl
    · exact .string []
    · exact .object []
  refine ⟨⟨?_, ?_⟩, hempty⟩
  · rintro ⟨fault, h, -⟩
    constructor
    · intro hvalue
      rw [hempty (.inl hvalue)] at h
      cases h
    · intro hvalue
      rw [hempty (.inr hvalue)] at h
      cases h
  · rintro ⟨hstring, hobject⟩
    cases value with
    | array items => exact (hother items rfl).elim
    | string t =>
        cases t with
        | nil => exact (hstring rfl).elim
        | cons c t =>
            have hiterates := Iterates.string (c :: t)
            rw [← hfound] at hiterates
            exact refused_of_iterates_text hversion hcommand hiterates
    | object inner =>
        cases inner with
        | nil => exact (hobject rfl).elim
        | cons member inner =>
            have hiterates := Iterates.object (member :: inner)
            rw [← hfound] at hiterates
            exact refused_of_iterates_text hversion hcommand hiterates
    | _ =>
        refine refused_of_not_iterates hversion hcommand fun items h => ?_
        rw [hfound] at h
        cases h

/-- An object that is an entry itself, in the place of the array. -/
theorem ofJson_of_entry_for_array :
    let value : Json := .object [
      (text "ip-address", .string (text "10.0.0.1")), (text "metric", .int 1)]
    let members : List (Text × Json) := [(text "version", .int 2),
      (text "command", .string (text "RESPONSE")), (text "entries", value)]
    HasVersion members .v2 ∧ HasCommand members .response ∧
      Json.find? (text "entries") members = some value ∧ (∀ items, value ≠ .array items) ∧
      RefusedForKind members := by
  intro value members
  have hversion : HasVersion members .v2 := ⟨.int 2, rfl, rfl⟩
  have hcommand : HasCommand members .response :=
    ⟨.string (text "RESPONSE"), rfl, .inl ⟨text "RESPONSE", rfl, by decide⟩⟩
  exact ⟨hversion, hcommand, rfl, nofun,
    (ofJson_of_not_array hversion hcommand rfl nofun).1.mpr ⟨nofun, nofun⟩⟩

/-- An object without members passes for a list without entries. -/
theorem not_refused_of_empty_object :
    ¬ ∀ (members : List (Text × Json)) (version : Version) (command : Command) (value : Json),
      HasVersion members version → HasCommand members command →
      Json.find? (text "entries") members = some value → (∀ items, value ≠ .array items) →
      RefusedForKind members := by
  intro h
  let members : List (Text × Json) := [(text "command", .string (text "request")),
    (text "version", .int 2), (text "entries", .object [])]
  have hcommand : HasCommand members .request :=
    ⟨.string (text "request"), rfl, .inl ⟨text "request", rfl, by decide⟩⟩
  obtain ⟨fault, hfault, -⟩ := h members .v2 .request (.object []) ⟨.int 2, rfl, rfl⟩ hcommand rfl nofun
  have hpacket : ofJson (.object members) = .ok (carrying .request .v2 []) := rfl
  rw [hpacket] at hfault
  cases hfault

end Packet

end RipWire
