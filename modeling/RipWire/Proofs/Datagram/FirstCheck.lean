import RipWire.Proofs.Datagram.Meaning

/-!
# Which check of a document decides

A document is checked from the top: that it is an object, its version, its
command, its entries, the items of its entries one after the other, and their
number. The first check that fails decides the fault.
-/

namespace RipWire

open Checks

namespace Document

/-- The checks of an item, in their order. -/
inductive ItemCheck where
  | object
  | knownFamily
  | hasAddress
  | hasMetric
  | fields

/-- The checks of a document, in their order. Items are checked by their index. -/
inductive Check where
  | object
  | hasVersion
  | knownVersion
  | hasCommand
  | knownCommand
  | iterable
  | item (index : Nat) (check : ItemCheck)
  | fits

def ItemCheck.missing? : ItemCheck → Option Text
  | .hasAddress => some (text "ip-address")
  | .hasMetric => some (text "metric")
  | _ => none

/-- The name of the member that a check looks for. -/
def Check.missing? : Check → Option Text
  | .hasVersion => some (text "version")
  | .hasCommand => some (text "command")
  | .item _ check => check.missing?
  | _ => none

/-- The faults that a check of an item is decided with. -/
inductive ItemCheck.Raises : ItemCheck → Fault → Prop
  | object (value : Json) : Raises .object (.notEntryObject value.kind)
  | familyName (name : Text) : Raises .knownFamily (.unknownFamily name)
  | familyCode (value : Json) (code : ∀ t, value ≠ .string t) :
      Raises .knownFamily (.codec (.invalidAddressFamily (.json value) none))
  | hasAddress : Raises .hasAddress (.missingField (text "ip-address"))
  | hasMetric : Raises .hasMetric (.missingField (text "metric"))
  | address (fault : AddressFault) : Raises .fields (.address fault)
  | addressKind (value : Json) : Raises .fields (.notAddress value.kind)
  | metric (value : Int) : Raises .fields (.metricRange (.int value))
  | metricKind (value : Json) : Raises .fields (.notMetric value.kind)
  | routeTag (value : Int) : Raises .fields (.routeTagRange (.int value))
  | routeTagKind (value : Json) : Raises .fields (.notRouteTag value.kind)

/-- The faults that a check of a document is decided with. -/
inductive Check.Raises : Check → Fault → Prop
  | object (value : Json) : Raises .object (.notPacketObject value.kind)
  | hasVersion : Raises .hasVersion (.missingField (text "version"))
  | version (value : Json) : Raises .knownVersion (.unknownVersion (.json value))
  | versionKind (value : Json) : Raises .knownVersion (.unhashable value.kind)
  | hasCommand : Raises .hasCommand (.missingField (text "command"))
  | commandName (name : Text) : Raises .knownCommand (.unknownCommand name)
  | commandCode (value : Json) (code : ∀ t, value ≠ .string t) :
      Raises .knownCommand (.codec (.invalidCommand (.json value) none))
  | commandKind (value : Json) : Raises .knownCommand (.unhashable value.kind)
  | iterable (value : Json) : Raises .iterable (.notIterable value.kind)
  | item {index : Nat} {check : ItemCheck} {fault : Fault} (raised : check.Raises fault) :
      Raises (.item index check) fault
  | fits (count : Nat) : Raises .fits (.codec (.overfull count none))

/-- The first check that an item fails, with what the checks before it found. -/
inductive ItemFails (version : Version) : Json → ItemCheck → Prop
  | object {item : Json} (other : ∀ members, item ≠ .object members) : ItemFails version item .object
  | knownFamily {members : List (Text × Json)}
      (unknown : ∀ f, ¬ Json.Given Json.GivesFamily .ip
        (Json.find? (text "address-family") members) f) :
      ItemFails version (.object members) .knownFamily
  | hasAddress {members : List (Text × Json)} {f : Family}
      (family : Json.Given Json.GivesFamily .ip (Json.find? (text "address-family") members) f)
      (missing : Json.find? (text "ip-address") members = none) :
      ItemFails version (.object members) .hasAddress
  | hasMetric {members : List (Text × Json)} {f : Family} {address : Json}
      (family : Json.Given Json.GivesFamily .ip (Json.find? (text "address-family") members) f)
      (address : Json.find? (text "ip-address") members = some address)
      (missing : Json.find? (text "metric") members = none) :
      ItemFails version (.object members) .hasMetric
  | fields {members : List (Text × Json)} {f : Family} {address metric : Json}
      (family : Json.Given Json.GivesFamily .ip (Json.find? (text "address-family") members) f)
      (address : Json.find? (text "ip-address") members = some address)
      (metric : Json.find? (text "metric") members = some metric)
      (invalid : ¬ AllowsEntry version members) :
      ItemFails version (.object members) .fields

/-- The first check that a document fails, with what the checks before it found. -/
inductive Fails : Json → Check → Prop
  | object {document : Json} (other : ∀ members, document ≠ .object members) :
      Fails document .object
  | hasVersion {members : List (Text × Json)}
      (missing : Json.find? (text "version") members = none) :
      Fails (.object members) .hasVersion
  | knownVersion {members : List (Text × Json)} {value : Json}
      (found : Json.find? (text "version") members = some value)
      (unknown : ∀ version, ¬ HasVersion members version) :
      Fails (.object members) .knownVersion
  | hasCommand {members : List (Text × Json)} {version : Version}
      (hasVersion : HasVersion members version)
      (missing : Json.find? (text "command") members = none) :
      Fails (.object members) .hasCommand
  | knownCommand {members : List (Text × Json)} {version : Version} {value : Json}
      (hasVersion : HasVersion members version)
      (found : Json.find? (text "command") members = some value)
      (unknown : ∀ command, ¬ HasCommand members command) :
      Fails (.object members) .knownCommand
  | iterable {members : List (Text × Json)} {version : Version} {command : Command}
      (hasVersion : HasVersion members version) (hasCommand : HasCommand members command)
      (never : ∀ items, ¬ Iterates (Json.find? (text "entries") members) items) :
      Fails (.object members) .iterable
  | item {members : List (Text × Json)} {version : Version} {command : Command}
      {before behind : List Json} {item : Json} {check : ItemCheck}
      (hasVersion : HasVersion members version) (hasCommand : HasCommand members command)
      (iterates : Iterates (Json.find? (text "entries") members) (before ++ item :: behind))
      (passed : ∀ other ∈ before, AllowsItem version other)
      (fails : ItemFails version item check) :
      Fails (.object members) (.item before.length check)
  | fits {members : List (Text × Json)} {version : Version} {command : Command}
      {items : List Json}
      (hasVersion : HasVersion members version) (hasCommand : HasCommand members command)
      (iterates : Iterates (Json.find? (text "entries") members) items)
      (passed : ∀ item ∈ items, AllowsItem version item) (many : 25 < items.length) :
      Fails (.object members) .fits

/-! ### Faults of the fields -/

theorem ItemCheck.raises_of_address {value : Json} {fault : Fault}
    (h : Field.address (.json value) = .error fault) : ItemCheck.Raises .fields fault := by
  rw [Field.address, map_error_iff] at h
  unfold Argument.address? at h
  split at h
  · cases h
  · obtain ⟨found, -, rfl⟩ := mapError_error_iff.mp h
    exact .address found
  · split at h
    · obtain ⟨found, -, rfl⟩ := mapError_error_iff.mp h
      exact .address found
    · cases h
      exact .addressKind value

theorem ItemCheck.raises_of_metric {value : Json} {fault : Fault}
    (h : Field.metric (.json value) = .error fault) : ItemCheck.Raises .fields fault := by
  unfold Field.metric at h
  split at h
  · cases h
    exact .metricKind value
  · next n number =>
      obtain rfl := Json.eq_int_of_integer? number
      split at h
      · cases h
      · cases h
        exact .metric n

theorem ItemCheck.raises_of_routeTag {value : Json} {fault : Fault}
    (h : Field.routeTag (.json value) = .error fault) : ItemCheck.Raises .fields fault := by
  unfold Field.routeTag at h
  split at h
  · cases h
    exact .routeTagKind value
  · next n number =>
      obtain rfl := Json.eq_int_of_integer? number
      split at h
      · cases h
      · cases h
        exact .routeTag n

section Entry

variable {family : Argument} {f : Family} (hf : Family.ofArgument family = .ok f) {fault : Fault}

include hf

theorem ItemCheck.raises_of_makeV1 {address metric : Json}
    (h : Entry.makeV1 family (.json address) (.json metric) = .error fault) :
    ItemCheck.Raises .fields fault := by
  rcases bind_error_iff.mp h with h | ⟨_, -, h⟩
  · rw [hf] at h
    cases h
  rcases bind_error_iff.mp h with h | ⟨_, -, h⟩
  · exact raises_of_address h
  rcases bind_error_iff.mp h with h | ⟨_, -, h⟩
  · exact raises_of_metric h
  cases h

theorem ItemCheck.raises_of_makeV2 {tag address mask hop metric : Json}
    (h : Entry.makeV2 family (.json tag) (.json address) (.json mask) (.json hop) (.json metric) =
      .error fault) : ItemCheck.Raises .fields fault := by
  rcases bind_error_iff.mp h with h | ⟨_, -, h⟩
  · rw [hf] at h
    cases h
  rcases bind_error_iff.mp h with h | ⟨_, -, h⟩
  · exact raises_of_routeTag h
  rcases bind_error_iff.mp h with h | ⟨_, -, h⟩
  · exact raises_of_address h
  rcases bind_error_iff.mp h with h | ⟨_, -, h⟩
  · exact raises_of_address h
  rcases bind_error_iff.mp h with h | ⟨_, -, h⟩
  · exact raises_of_address h
  rcases bind_error_iff.mp h with h | ⟨_, -, h⟩
  · exact raises_of_metric h
  cases h

end Entry

/-! ### Faults of the coded members -/

theorem ItemCheck.raises_of_family {value : Json} {fault : Fault}
    (h : family (.json value) = .error fault) : ItemCheck.Raises .knownFamily fault := by
  unfold family at h
  split at h
  · next t heq =>
      cases heq
      rw [Family.ofName] at h
      cases hname : Family.ofName? t with
      | some f =>
          rw [hname] at h
          cases h
      | none =>
          rw [hname] at h
          cases h
          exact .familyName t
  · next hcode =>
      unfold Family.ofArgument at h
      split at h
      · cases h
      · cases h
        exact .familyCode value fun t ht => hcode t (by rw [ht])

theorem Check.raises_of_known {value : Json} {fault : Fault}
    (h : Version.known (.json value) = .error fault) : Check.Raises .knownVersion fault := by
  rcases bind_error_iff.mp h with h | ⟨key, -, h⟩
  · rw [Json.unhashable_of_key h]
    exact .versionKind value
  · split at h
    · cases h
    · cases h
      exact .version value

theorem Check.raises_of_command {value : Json} {fault : Fault}
    (h : command (.json value) = .error fault) : Check.Raises .knownCommand fault := by
  unfold command at h
  split at h
  · next t heq =>
      cases heq
      rw [Command.ofName] at h
      cases hname : Command.ofName? t with
      | some c =>
          rw [hname] at h
          cases h
      | none =>
          rw [hname] at h
          cases h
          exact .commandName t
  · next hcode =>
      rcases bind_error_iff.mp h with h | ⟨key, -, h⟩
      · rw [Json.unhashable_of_key h]
        exact .commandKind value
      · split at h
        · cases h
        · cases h
          exact .commandCode value fun t ht => hcode t (by rw [ht])

theorem Check.raises_of_items {members : List (Text × Json)} {fault : Fault}
    (h : (optional (text "entries") (.array []) members).items = .error fault) :
    Check.Raises .iterable fault := by
  unfold optional at h
  generalize (Json.find? (text "entries") members).getD (.array []) = value at h
  have hfault : fault = .notIterable value.kind := by
    cases value with
    | array items => cases h
    | string t => cases h
    | object inner => cases h
    | _ =>
        cases h
        rfl
  rw [hfault]
  exact .iterable value

/-! ### The check that fails first decides -/

theorem required_error {name : Text} {members : List (Text × Json)}
    (h : Json.find? name members = none) : required name members = .error (.missingField name) := by
  rw [required, h]

theorem ItemFails.raises {version : Version} {item : Json} {check : ItemCheck}
    (h : ItemFails version item check) :
    ∃ fault, entry version (.json item) = .error fault ∧ check.Raises fault := by
  cases h with
  | object other =>
      have hmembers : entryMembers (.json item) = .error (.notEntryObject item.kind) := by
        cases item with
        | object members => exact (other members rfl).elim
        | _ => rfl
      exact ⟨_, bind_error_iff.mpr (.inl hmembers), .object item⟩
  | @knownFamily members unknown =>
      cases hfamily : family (optional (text "address-family") (.string (text "ip")) members) with
      | ok f => exact (unknown f (optional_family_iff.mp hfamily)).elim
      | error fault =>
          refine ⟨fault, bind_error_iff.mpr (.inr ⟨members, rfl, ?_⟩),
            ItemCheck.raises_of_family hfamily⟩
          exact bind_error_iff.mpr (.inl hfamily)
  | @hasAddress members f family missing =>
      refine ⟨_, bind_error_iff.mpr (.inr ⟨members, rfl, ?_⟩), .hasAddress⟩
      refine bind_error_iff.mpr (.inr ⟨f, optional_family_iff.mpr family, ?_⟩)
      exact bind_error_iff.mpr (.inl (required_error missing))
  | @hasMetric members f address family found missing =>
      refine ⟨_, bind_error_iff.mpr (.inr ⟨members, rfl, ?_⟩), .hasMetric⟩
      refine bind_error_iff.mpr (.inr ⟨f, optional_family_iff.mpr family, ?_⟩)
      refine bind_error_iff.mpr (.inr ⟨_, required_ok_iff.mpr ⟨address, found, rfl⟩, ?_⟩)
      exact bind_error_iff.mpr (.inl (required_error missing))
  | @fields members f address metric family found measured invalid =>
      cases hentry : entry version (.json (.object members)) with
      | ok e => exact (invalid (entry_object_ok_iff.mp hentry).allowsEntry).elim
      | error fault =>
          refine ⟨fault, rfl, ?_⟩
          rw [entry_object_eq version family found measured] at hentry
          cases version with
          | v1 => exact ItemCheck.raises_of_makeV1 (Family.ofArgument_code f) hentry
          | v2 => exact ItemCheck.raises_of_makeV2 (Family.ofArgument_code f) hentry

theorem Fails.raises {document : Json} {check : Check} (h : Fails document check) :
    ∃ fault, Packet.ofJson document = .error fault ∧ check.Raises fault := by
  cases h with
  | object other =>
      have hobject : Packet.ofJson document = .error (.notPacketObject document.kind) := by
        cases document with
        | object members => exact (other members rfl).elim
        | _ => rfl
      exact ⟨_, hobject, .object document⟩
  | hasVersion missing =>
      exact ⟨_, bind_error_iff.mpr (.inl (required_error missing)), .hasVersion⟩
  | @knownVersion members value found unknown =>
      cases hknown : Version.known (.json value) with
      | ok version => exact (unknown version ⟨value, found, known_ok_iff.mp hknown⟩).elim
      | error fault =>
          refine ⟨fault, bind_error_iff.mpr (.inr ⟨_, required_ok_iff.mpr ⟨value, found, rfl⟩, ?_⟩),
            Check.raises_of_known hknown⟩
          exact bind_error_iff.mpr (.inl hknown)
  | @hasCommand members version hasVersion missing =>
      obtain ⟨value, found, hnumber⟩ := hasVersion
      refine ⟨_, bind_error_iff.mpr (.inr ⟨_, required_ok_iff.mpr ⟨value, found, rfl⟩, ?_⟩),
        .hasCommand⟩
      refine bind_error_iff.mpr (.inr ⟨version, known_ok_iff.mpr hnumber, ?_⟩)
      exact bind_error_iff.mpr (.inl (required_error missing))
  | @knownCommand members version value hasVersion found unknown =>
      obtain ⟨number, hfound, hnumber⟩ := hasVersion
      cases hcommand : command (.json value) with
      | ok c => exact (unknown c ⟨value, found, command_ok_iff.mp hcommand⟩).elim
      | error fault =>
          refine ⟨fault, bind_error_iff.mpr (.inr ⟨_, required_ok_iff.mpr ⟨number, hfound, rfl⟩, ?_⟩),
            Check.raises_of_command hcommand⟩
          refine bind_error_iff.mpr (.inr ⟨version, known_ok_iff.mpr hnumber, ?_⟩)
          refine bind_error_iff.mpr (.inr ⟨_, required_ok_iff.mpr ⟨value, found, rfl⟩, ?_⟩)
          exact bind_error_iff.mpr (.inl hcommand)
  | @iterable members version command hasVersion hasCommand never =>
      rw [Packet.ofJson_object_eq hasVersion hasCommand]
      cases hitems : (optional (text "entries") (.array []) members).items with
      | ok arguments =>
          obtain ⟨items, hiterates, -⟩ := items_ok_iff.mp hitems
          exact (never items hiterates).elim
      | error fault => exact ⟨fault, rfl, Check.raises_of_items hitems⟩
  | @item members version command before behind item check hasVersion hasCommand iterates passed
      fails =>
      obtain ⟨fault, hentry, hraises⟩ := fails.raises
      have hbefore : ∀ other ∈ before.map Argument.json, ∃ e, entry version other = .ok e := by
        intro other hm
        obtain ⟨value, hvalue, rfl⟩ := List.mem_map.mp hm
        exact allowsItem_iff.mp (passed value hvalue)
      have hmapM := mapM_error_behind (behind.map Argument.json) hbefore hentry
      refine ⟨fault, ?_, .item hraises⟩
      rw [Packet.ofJson_iterated_eq iterates hasVersion hasCommand, List.map_append, List.map_cons,
        hmapM]
      rfl
  | @fits members version command items hasVersion hasCommand iterates passed many =>
      have hpassed : ∀ other ∈ items.map Argument.json, ∃ e, entry version other = .ok e := by
        intro other hm
        obtain ⟨value, hvalue, rfl⟩ := List.mem_map.mp hm
        exact allowsItem_iff.mp (passed value hvalue)
      obtain ⟨entries, hentries⟩ := mapM_ok_of_forall hpassed
      have hmany : Packet.capacity < (entries.map Argument.entry).length := by
        have hlength := (mapM_ok_iff.mp hentries).length_eq
        rw [List.length_map] at hlength ⊢
        rw [← hlength]
        exact many
      refine ⟨_, ?_, .fits (entries.map Argument.entry).length⟩
      rw [Packet.ofJson_iterated_eq iterates hasVersion hasCommand, hentries]
      exact Packet.assemble_overfull hmany

/-! ### A document passes or fails -/

theorem exists_itemFails {version : Version} {item : Json} (h : ¬ AllowsItem version item) :
    ∃ check, ItemFails version item check := by
  by_cases hobject : ∃ members, item = .object members
  · obtain ⟨members, rfl⟩ := hobject
    by_cases hfamily : ∃ f, Json.Given Json.GivesFamily .ip
        (Json.find? (text "address-family") members) f
    · obtain ⟨f, hf⟩ := hfamily
      cases haddress : Json.find? (text "ip-address") members with
      | none => exact ⟨_, .hasAddress hf haddress⟩
      | some address =>
          cases hmetric : Json.find? (text "metric") members with
          | none => exact ⟨_, .hasMetric hf haddress hmetric⟩
          | some metric =>
              exact ⟨_, .fields hf haddress hmetric fun hallows => h ⟨members, rfl, hallows⟩⟩
    · exact ⟨_, .knownFamily fun f hf => hfamily ⟨f, hf⟩⟩
  · exact ⟨_, .object fun members hitem => hobject ⟨members, hitem⟩⟩

theorem passes_or_fails (document : Json) :
    (∃ p, Packet.ofJson document = .ok p) ∨ ∃ check, Fails document check := by
  by_cases hobject : ∃ members, document = .object members
  swap
  · exact .inr ⟨_, .object fun members h => hobject ⟨members, h⟩⟩
  obtain ⟨members, rfl⟩ := hobject
  by_cases hversion : ∃ version, HasVersion members version
  swap
  · cases hfound : Json.find? (text "version") members with
    | none => exact .inr ⟨_, .hasVersion hfound⟩
    | some value => exact .inr ⟨_, .knownVersion hfound fun version h => hversion ⟨version, h⟩⟩
  obtain ⟨version, hversion⟩ := hversion
  by_cases hcommand : ∃ command, HasCommand members command
  swap
  · cases hfound : Json.find? (text "command") members with
    | none => exact .inr ⟨_, .hasCommand hversion hfound⟩
    | some value =>
        exact .inr ⟨_, .knownCommand hversion hfound fun command h => hcommand ⟨command, h⟩⟩
  obtain ⟨command, hcommand⟩ := hcommand
  by_cases hiterates : ∃ items, Iterates (Json.find? (text "entries") members) items
  swap
  · exact .inr ⟨_, .iterable hversion hcommand fun items h => hiterates ⟨items, h⟩⟩
  obtain ⟨items, hiterates⟩ := hiterates
  rcases forall_or_first (AllowsItem version) items with
    hpassed | ⟨before, item, behind, rfl, hpassed, hitem⟩
  · by_cases hfits : items.length ≤ 25
    · exact .inl ((Packet.exists_ofJson_iff hiterates).mpr
        ⟨version, hversion, ⟨command, hcommand⟩, hfits, hpassed⟩)
    · exact .inr ⟨_, .fits hversion hcommand hiterates hpassed (by omega)⟩
  · obtain ⟨check, hfails⟩ := exists_itemFails hitem
    exact .inr ⟨_, .item hversion hcommand hiterates hpassed hfails⟩

end Document

namespace Packet

open Document

/-- A fault is the one of the check that fails first. -/
theorem exists_fails_of_ofJson {document : Json} {fault : Fault}
    (h : ofJson document = .error fault) : ∃ check, Fails document check ∧ check.Raises fault := by
  rcases passes_or_fails document with ⟨p, hp⟩ | ⟨check, hfails⟩
  · rw [h] at hp
    cases hp
  · obtain ⟨other, hother, hraises⟩ := hfails.raises
    rw [h] at hother
    cases hother
    exact ⟨check, hfails, hraises⟩

end Packet

end RipWire
