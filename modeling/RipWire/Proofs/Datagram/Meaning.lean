import RipWire.Proofs.Datagram.Members

/-!
# What a document means

A document is a packet when its members have values that are allowed for them, and
the packet then has these values, entry by entry. Nothing else in the document
matters: no member of another name, and in the first version no member that only
the second one has.
-/

namespace RipWire

open Checks

namespace Json

/-- An integer from zero on. -/
def IsNumber (highest : Nat) (value : Json) : Prop :=
  ∃ n : Int, value = .int n ∧ 0 ≤ n ∧ n ≤ highest

/-- The written form of an address, or an integer of thirty-two bits. -/
def IsAddress (value : Json) : Prop :=
  (∃ a : Address, value = .string a.render) ∨ value.IsNumber 4294967295

theorem isNumber_iff {highest : Nat} {value : Json} :
    value.IsNumber highest ↔ ∃ n, value.GivesNumber n ∧ n ≤ highest := by
  constructor
  · rintro ⟨n, rfl, hlow, hhigh⟩
    obtain ⟨k, rfl⟩ := Int.eq_ofNat_of_zero_le hlow
    exact ⟨k, rfl, by omega⟩
  · rintro ⟨n, rfl, hn⟩
    exact ⟨n, rfl, by omega, by omega⟩

theorem isAddress_iff {value : Json} : value.IsAddress ↔ ∃ a, value.GivesAddress a := by
  constructor
  · rintro (⟨a, rfl⟩ | ⟨n, rfl, hlow, hhigh⟩)
    · exact ⟨a, .inl rfl⟩
    · obtain ⟨a, rfl⟩ := Address.exists_packed_eq hlow hhigh
      exact ⟨a, .inr rfl⟩
  · rintro ⟨a, rfl | rfl⟩
    · exact .inl ⟨a, rfl⟩
    · have hlt := Bytes.toNat_lt_of_length_four a.packed_length
      exact .inr ⟨_, rfl, by omega, by omega⟩

theorem IsNumber.exists_integer {highest : Nat} {value : Json} (h : value.IsNumber highest) :
    ∃ n : Nat, (Argument.json value).integer? = some (n : Int) ∧ n < highest + 1 := by
  obtain ⟨n, hn, hle⟩ := isNumber_iff.mp h
  exact ⟨n, integer?_eq_some_iff.mpr hn, by omega⟩

theorem IsAddress.exists_given {value : Json} (h : value.IsAddress) :
    ∃ a, (Argument.json value).GivesAddress a := by
  obtain ⟨a, ha⟩ := isAddress_iff.mp h
  exact ⟨a, argument_givesAddress_iff.mpr ha⟩

theorem exists_given_iff {Value : Type} {Gives : Json → Value → Prop} {absent : Value}
    {member : Option Json} :
    (∃ value, Given Gives absent member value) ↔
      ∀ given, member = some given → ∃ value, Gives given value := by
  cases member with
  | none => simp [Given]
  | some given => simp [Given]

end Json

namespace Document

/-- The values with which the members of an object are an entry of a layout. -/
structure AllowsEntry (layout : Version) (members : List (Text × Json)) : Prop where
  family : ∀ value, Json.find? (text "address-family") members = some value →
    ∃ f, value.GivesFamily f
  address : ∃ value, Json.find? (text "ip-address") members = some value ∧ value.IsAddress
  metric : ∃ value, Json.find? (text "metric") members = some value ∧ value.IsNumber 4294967295
  routeTag : layout = .v2 → ∀ value, Json.find? (text "route-tag") members = some value →
    value.IsNumber 65535
  subnetMask : layout = .v2 → ∀ value, Json.find? (text "subnet-mask") members = some value →
    value.IsAddress
  nextHop : layout = .v2 → ∀ value, Json.find? (text "next-hop") members = some value →
    value.IsAddress

theorem DescribesEntry.allowsEntry {layout : Version} {members : List (Text × Json)} {e : Entry}
    (h : DescribesEntry layout members e) : AllowsEntry layout members := by
  obtain ⟨f, hf, -⟩ := h.family
  obtain ⟨v, a, hv, ha, -⟩ := h.address
  obtain ⟨w, n, hw, hn, hmetric⟩ := h.metric
  have hlt := Entry.metric_lt hmetric
  constructor
  case family => exact Json.exists_given_iff.mp ⟨f, hf⟩
  case address => exact ⟨v, hv, Json.isAddress_iff.mpr ⟨a, ha⟩⟩
  case metric => exact ⟨w, hw, Json.isNumber_iff.mpr ⟨n, hn, by omega⟩⟩
  case routeTag =>
    intro hlayout value hvalue
    obtain ⟨tag, htag, hread⟩ := h.routeTag hlayout
    rw [hvalue] at htag
    have hsmall := Entry.routeTag_lt hread
    exact Json.isNumber_iff.mpr ⟨tag, htag, by omega⟩
  case subnetMask =>
    intro hlayout value hvalue
    obtain ⟨mask, hmask, -⟩ := h.subnetMask hlayout
    exact Json.isAddress_iff.mpr (Json.exists_given_iff.mp ⟨mask, hmask⟩ value hvalue)
  case nextHop =>
    intro hlayout value hvalue
    obtain ⟨hop, hhop, -⟩ := h.nextHop hlayout
    exact Json.isAddress_iff.mpr (Json.exists_given_iff.mp ⟨hop, hhop⟩ value hvalue)

theorem exists_optional_address {name : Text} {members : List (Text × Json)}
    (h : ∀ value, Json.find? name members = some value → value.IsAddress) :
    ∃ a, (optional name (.string (text "0.0.0.0")) members).GivesAddress a := by
  simp only [optional_address_iff, Json.exists_given_iff]
  exact fun value hvalue => Json.isAddress_iff.mp (h value hvalue)

theorem exists_optional_number {name : Text} {members : List (Text × Json)} {highest : Nat}
    (h : ∀ value, Json.find? name members = some value → value.IsNumber highest) :
    ∃ n : Nat, (optional name (.int 0) members).integer? = some (n : Int) ∧ n < highest + 1 := by
  unfold optional
  cases hfound : Json.find? name members with
  | none => exact ⟨0, rfl, by omega⟩
  | some value => exact (h value hfound).exists_integer

theorem AllowsEntry.exists_describesEntry {layout : Version} {members : List (Text × Json)}
    (h : AllowsEntry layout members) : ∃ e, DescribesEntry layout members e := by
  obtain ⟨f, hf⟩ : ∃ f, Json.Given Json.GivesFamily .ip
      (Json.find? (text "address-family") members) f := Json.exists_given_iff.mpr h.family
  obtain ⟨v, hv, haddress⟩ := h.address
  obtain ⟨w, hw, hmetric⟩ := h.metric
  have hcode : ∃ g, (Argument.number .family f.code).toInt? = some (Family.code g : Int) := ⟨f, rfl⟩
  simp only [← entry_object_ok_iff, entry_object_eq layout hf hv hw]
  cases layout with
  | v1 =>
      exact Entry.exists_makeV1_iff.mpr ⟨hcode, haddress.exists_given, hmetric.exists_integer⟩
  | v2 =>
      exact Entry.exists_makeV2_iff.mpr ⟨hcode, exists_optional_number (h.routeTag rfl),
        haddress.exists_given, exists_optional_address (h.subnetMask rfl),
        exists_optional_address (h.nextHop rfl), hmetric.exists_integer⟩

/-! ### Whole documents -/

def HasVersion (members : List (Text × Json)) (version : Version) : Prop :=
  ∃ value, Json.find? (text "version") members = some value ∧
    value.number? = some (version.code : ℚ)

def HasCommand (members : List (Text × Json)) (command : Command) : Prop :=
  ∃ value, Json.find? (text "command") members = some value ∧ value.GivesCommand command

/-- An item with which a document can be a packet of a version. -/
def AllowsItem (version : Version) (item : Json) : Prop :=
  ∃ members, item = .object members ∧ AllowsEntry version members

/-- The items of the entries: of an array its own, of a text its code points, of an object the
names of its members. -/
inductive Iterates : Option Json → List Json → Prop
  | absent : Iterates none []
  | array (items : List Json) : Iterates (some (.array items)) items
  | string (t : Text) : Iterates (some (.string t)) (t.map fun c => .string [c])
  | object (members : List (Text × Json)) :
      Iterates (some (.object members)) (members.map fun member => .string member.1)

/-- The items that a document lists; a document without entries lists none. -/
def Lists (members : List (Text × Json)) (items : List Json) : Prop :=
  Json.find? (text "entries") members = none ∧ items = [] ∨
    Json.find? (text "entries") members = some (.array items)

/-- The values with which a document of some items is a packet of a version. -/
structure Allows (version : Version) (members : List (Text × Json)) (items : List Json) :
    Prop where
  hasVersion : HasVersion members version
  hasCommand : ∃ command, HasCommand members command
  fits : items.length ≤ 25
  entries : ∀ item ∈ items, AllowsItem version item

/-- What a document of some items says about a packet. -/
structure Describes (members : List (Text × Json)) (items : List Json) (version : Version)
    (command : Command) (p : Packet) : Prop where
  hasVersion : HasVersion members version
  hasCommand : HasCommand members command
  entries : List.Forall₂ (fun item e => ∃ inner, item = .object inner ∧
    DescribesEntry version inner e) items p.entries
  fits : p.entries.length ≤ 25
  packet : p = Packet.carrying command version p.entries

theorem Lists.iterates {members : List (Text × Json)} {items : List Json}
    (h : Lists members items) : Iterates (Json.find? (text "entries") members) items := by
  rcases h with ⟨hfound, rfl⟩ | hfound
  · rw [hfound]
    exact .absent
  · rw [hfound]
    exact .array items

theorem items_ok_iff {members : List (Text × Json)} {arguments : List Argument} :
    (optional (text "entries") (.array []) members).items = .ok arguments ↔
      ∃ items, Iterates (Json.find? (text "entries") members) items ∧
        arguments = items.map .json := by
  unfold optional
  constructor
  · intro h
    cases hfound : Json.find? (text "entries") members with
    | none =>
        rw [hfound] at h
        cases h
        exact ⟨[], .absent, rfl⟩
    | some value =>
        rw [hfound] at h
        cases value with
        | array items =>
            cases h
            exact ⟨items, .array items, rfl⟩
        | string t =>
            cases h
            exact ⟨_, .string t, rfl⟩
        | object inner =>
            cases h
            exact ⟨_, .object inner, rfl⟩
        | _ => cases h
  · rintro ⟨items, h, rfl⟩
    cases hfound : Json.find? (text "entries") members <;> rw [hfound] at h <;> cases h <;> rfl

theorem known_ok_iff {value : Json} {version : Version} :
    Version.known (.json value) = .ok version ↔ value.number? = some (version.code : ℚ) := by
  rw [Version.known_ok_iff, Argument.toInt?, Json.toInt?_natCast_iff]

theorem mapM_entry_ok_iff {version : Version} {items : List Json} {entries : List Entry} :
    (items.map Argument.json).mapM (entry version) = .ok entries ↔
      List.Forall₂ (fun item e => ∃ inner, item = .object inner ∧
        DescribesEntry version inner e) items entries := by
  rw [mapM_ok_iff, List.forall₂_map_left_iff]
  simp only [entry_ok_iff]

theorem allowsItem_iff {version : Version} {item : Json} :
    AllowsItem version item ↔ ∃ e, entry version (.json item) = .ok e := by
  simp only [entry_ok_iff]
  constructor
  · rintro ⟨members, rfl, h⟩
    obtain ⟨e, he⟩ := h.exists_describesEntry
    exact ⟨e, members, rfl, he⟩
  · rintro ⟨e, members, rfl, h⟩
    exact ⟨members, rfl, h.allowsEntry⟩

end Document

namespace Packet

open Document

/-- What remains to be checked when the version and the command of a document are known. -/
theorem ofJson_object_eq {members : List (Text × Json)} {version : Version} {command : Command}
    (hversion : HasVersion members version) (hcommand : HasCommand members command) :
    ofJson (.object members) =
      ((optional (text "entries") (.array []) members).items >>= fun items =>
        items.mapM (entry version) >>= fun entries =>
          assemble (Format.ofVersion version) (Header.ofCodes command version)
            (entries.map .entry)) := by
  obtain ⟨v, hv, hnumber⟩ := hversion
  obtain ⟨w, hw, hgives⟩ := hcommand
  have hversion := required_ok_iff.mpr ⟨v, hv, rfl⟩
  have hknown := known_ok_iff.mpr hnumber
  have hcommand := required_ok_iff.mpr ⟨w, hw, rfl⟩
  have hgiven := command_ok_iff.mpr hgives
  simp only [ofJson, ofDocument, bind, Except.bind, hversion, hknown, hcommand, hgiven]

theorem heads_of_ofJson {members : List (Text × Json)} {p : Packet}
    (h : ofJson (.object members) = .ok p) :
    ∃ version command, HasVersion members version ∧ HasCommand members command := by
  obtain ⟨value, hvalue, h⟩ := bind_ok_iff.mp h
  obtain ⟨version, hversion, h⟩ := bind_ok_iff.mp h
  obtain ⟨given, hgiven, h⟩ := bind_ok_iff.mp h
  obtain ⟨command, hcommand, -⟩ := bind_ok_iff.mp h
  obtain ⟨v, hv, rfl⟩ := required_ok_iff.mp hvalue
  obtain ⟨w, hw, rfl⟩ := required_ok_iff.mp hgiven
  exact ⟨version, command, ⟨v, hv, known_ok_iff.mp hversion⟩, w, hw, command_ok_iff.mp hcommand⟩

section Iterates

variable {members : List (Text × Json)} {items : List Json}
  (hiterates : Iterates (Json.find? (text "entries") members) items)

include hiterates

theorem ofJson_iterated_eq {version : Version} {command : Command}
    (hversion : HasVersion members version) (hcommand : HasCommand members command) :
    ofJson (.object members) =
      ((items.map Argument.json).mapM (entry version) >>= fun entries =>
        assemble (Format.ofVersion version) (Header.ofCodes command version)
          (entries.map .entry)) := by
  rw [ofJson_object_eq hversion hcommand, items_ok_iff.mpr ⟨items, hiterates, rfl⟩]
  rfl

theorem ofJson_ok_iff {p : Packet} :
    ofJson (.object members) = .ok p ↔
      ∃ version command, Describes members items version command p := by
  constructor
  · intro h
    obtain ⟨version, command, hversion, hcommand⟩ := heads_of_ofJson h
    rw [ofJson_iterated_eq hiterates hversion hcommand] at h
    obtain ⟨entries, hentries, h⟩ := bind_ok_iff.mp h
    obtain ⟨others, hothers, hfits, -, -, rfl⟩ := assemble_ok_iff.mp h
    have hsame : entries = others :=
      List.map_injective_iff.mpr (fun _ _ => Argument.entry.inj) hothers
    cases hsame
    exact ⟨version, command, hversion, hcommand, mapM_entry_ok_iff.mp hentries, hfits, rfl⟩
  · rintro ⟨version, command, h⟩
    rw [ofJson_iterated_eq hiterates h.hasVersion h.hasCommand]
    refine bind_ok_iff.mpr ⟨p.entries, mapM_entry_ok_iff.mpr h.entries, ?_⟩
    refine assemble_ok_iff.mpr ⟨p.entries, rfl, h.fits, Header.version_ofCodes command version,
      ?_, h.packet⟩
    exact forall_mem_of_forall₂ h.entries (fun _ _ ⟨_, _, he⟩ _ => he.version) fun _ _ => trivial

theorem exists_ofJson_iff :
    (∃ p, ofJson (.object members) = .ok p) ↔ ∃ version, Allows version members items := by
  simp only [ofJson_ok_iff hiterates]
  constructor
  · rintro ⟨p, version, command, h⟩
    refine ⟨version, h.hasVersion, ⟨command, h.hasCommand⟩, ?_, ?_⟩
    · rw [h.entries.length_eq]
      exact h.fits
    · exact forall_mem_of_forall₂ h.entries.flip
        (fun _ _ ⟨inner, hinner, he⟩ _ => ⟨inner, hinner, he.allowsEntry⟩) fun _ _ => trivial
  · rintro ⟨version, h⟩
    obtain ⟨command, hcommand⟩ := h.hasCommand
    have hdescribed : ∀ item ∈ items, ∃ e, ∃ inner, item = .object inner ∧
        DescribesEntry version inner e := by
      intro item hm
      obtain ⟨inner, hinner, hallows⟩ := h.entries item hm
      obtain ⟨e, he⟩ := hallows.exists_describesEntry
      exact ⟨e, inner, hinner, he⟩
    obtain ⟨entries, hentries⟩ := exists_forall₂ hdescribed
    have hfits : entries.length ≤ 25 := by
      rw [← hentries.length_eq]
      exact h.fits
    exact ⟨carrying command version entries, version, command, h.hasVersion, hcommand, hentries,
      hfits, rfl⟩

end Iterates

end Packet

/-! ### What does not matter -/

namespace Document

/-- The names of the members that an entry of a layout is made of. -/
def entryNames : Version → List Text
  | .v1 => [text "address-family", text "ip-address", text "metric"]
  | .v2 => [text "address-family", text "route-tag", text "ip-address", text "subnet-mask",
      text "next-hop", text "metric"]

def Agree (names : List Text) (members others : List (Text × Json)) : Prop :=
  ∀ name ∈ names, Json.find? name members = Json.find? name others

/-- Items are alike when they are the same, or objects that agree in what a layout has. -/
inductive AlikeItems (layout : Version) : Json → Json → Prop
  | same (item : Json) : AlikeItems layout item item
  | objects {members others : List (Text × Json)}
      (agree : Agree (entryNames layout) members others) :
      AlikeItems layout (.object members) (.object others)

theorem Agree.required_eq {names : List Text} {members others : List (Text × Json)}
    (h : Agree names members others) {name : Text} (hm : name ∈ names) :
    required name members = required name others := by
  rw [required, h name hm, required]

theorem Agree.optional_eq {names : List Text} {members others : List (Text × Json)}
    (h : Agree names members others) {name : Text} (hm : name ∈ names) (absent : Json) :
    optional name absent members = optional name absent others := by
  rw [optional, h name hm, optional]

theorem AlikeItems.entry_eq {layout : Version} {item other : Json} (h : AlikeItems layout item other) :
    entry layout (.json item) = entry layout (.json other) := by
  cases h with
  | same => rfl
  | @objects members others h =>
      have hmembers (names : List (Text × Json)) :
          entryMembers (.json (.object names)) = .ok names := rfl
      cases layout with
      | v1 =>
          have hfamily := h.optional_eq (show text "address-family" ∈ _ by decide)
          have haddress := h.required_eq (show text "ip-address" ∈ _ by decide)
          have hmetric := h.required_eq (show text "metric" ∈ _ by decide)
          simp only [entry, hmembers, bind, Except.bind, hfamily, haddress, hmetric]
      | v2 =>
          have hfamily := h.optional_eq (show text "address-family" ∈ _ by decide)
          have htag := h.optional_eq (show text "route-tag" ∈ _ by decide)
          have haddress := h.required_eq (show text "ip-address" ∈ _ by decide)
          have hmask := h.optional_eq (show text "subnet-mask" ∈ _ by decide)
          have hhop := h.optional_eq (show text "next-hop" ∈ _ by decide)
          have hmetric := h.required_eq (show text "metric" ∈ _ by decide)
          simp only [entry, hmembers, bind, Except.bind, hfamily, htag, haddress, hmask, hhop,
            hmetric]

/-- A document that lists items, against another one: both have the same version and the same
command, and their items are alike. -/
structure Alike (members : List (Text × Json)) (items : List Json)
    (others : List (Text × Json)) (otherItems : List Json) : Prop where
  heads : Agree [text "version", text "command"] members others
  items : ∀ version, HasVersion members version →
    List.Forall₂ (AlikeItems version) items otherItems

/-- All there is to a document that lists items: when it is a packet, which packet it is, and
which documents can not be told from it, whether they are packets or not. -/
structure Meaning (members : List (Text × Json)) (items : List Json) : Prop where
  accepted : (∃ p, Packet.ofJson (.object members) = .ok p) ↔
    ∃ version, Allows version members items
  described : ∀ p, Packet.ofJson (.object members) = .ok p ↔
    ∃ version command, Describes members items version command p
  ignored : ∀ others otherItems, Lists others otherItems → Alike members items others otherItems →
    Packet.ofJson (.object others) = Packet.ofJson (.object members)

end Document

namespace Packet

open Document

theorem ofJson_eq_of_alike {members others : List (Text × Json)} {items otherItems : List Json}
    (hlist : Lists members items) (hother : Lists others otherItems)
    (h : Alike members items others otherItems) :
    ofJson (.object members) = ofJson (.object others) := by
  have hitems := items_ok_iff.mpr ⟨items, hlist.iterates, rfl⟩
  have hotherItems := items_ok_iff.mpr ⟨otherItems, hother.iterates, rfl⟩
  simp only [ofJson, ofDocument, hitems, hotherItems,
    h.heads.required_eq (show text "version" ∈ _ by decide),
    h.heads.required_eq (show text "command" ∈ _ by decide)]
  refine bind_congr_ok fun value hvalue => bind_congr_ok fun version hversion => ?_
  obtain ⟨v, hv, rfl⟩ := required_ok_iff.mp hvalue
  rw [← h.heads _ (show text "version" ∈ _ by decide)] at hv
  have halike := h.items version ⟨v, hv, known_ok_iff.mp hversion⟩
  have hmapM : (items.map Argument.json).mapM (entry version) =
      (otherItems.map Argument.json).mapM (entry version) := by
    refine mapM_congr (List.forall₂_map_left_iff.mpr (List.forall₂_map_right_iff.mpr ?_))
    exact halike.imp fun _ _ hitem => hitem.entry_eq
  refine bind_congr_ok fun name _ => bind_congr_ok fun command _ => ?_
  simp only [bind, Except.bind, hmapM]

theorem ofJson_meaning {members : List (Text × Json)} {items : List Json}
    (hlist : Lists members items) : Meaning members items where
  accepted := exists_ofJson_iff hlist.iterates
  described := fun _ => ofJson_ok_iff hlist.iterates
  ignored := fun _ _ hother h => (ofJson_eq_of_alike hlist hother h).symm

/-- A version in floating point, a truth value as the command, a family in capital letters, both
forms of an address, and members that mean nothing. -/
theorem ofJson_meaning_of_mixed_forms :
    let items : List Json := [
      .object [(text "address-family", .string (text "IPv4")),
        (text "ip-address", .int 4294967295), (text "note", .null),
        (text "subnet-mask", .string (text "255.0.0.0")), (text "metric", .int 16)]]
    let members : List (Text × Json) := [
      (text "version", .float (.finite false 4503599627370496 (-51))),
      (text "command", .bool true), (text "entries", .array items), (text "extra", .array [])]
    Lists members items ∧ Meaning members items := by
  intro items members
  have hlist : Lists members items := .inr rfl
  exact ⟨hlist, ofJson_meaning hlist⟩

end Packet

end RipWire
