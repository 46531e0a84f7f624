import RipWire.Proofs.Datagram.Fields

/-!
# Entries by the members of an object

What the members of an object say about an entry: a family by its name or its
code, addresses in their written form or as numbers, the metric and the route tag
as integers. A member that may be left out says what is assumed without it, and
members that the layout does not have say nothing.
-/

namespace RipWire

open Checks

namespace Json

/-! ### The values that a member gives -/

/-- A command is given by its name in any letter case, or by what equals its code. -/
def GivesCommand (value : Json) (command : Command) : Prop :=
  (∃ t, value = .string t ∧ t.lower = command.name) ∨ value.number? = some (command.code : ℚ)

/-- A family is given like a command; the address family of routes has a second name. -/
def GivesFamily (value : Json) (family : Family) : Prop :=
  (∃ t, value = .string t ∧
    (t.lower = family.name ∨ family = .ip ∧ t.lower = text "ipv4")) ∨
  value.number? = some (family.code : ℚ)

/-- An address is given in its written form or as the number of its octets. -/
def GivesAddress (value : Json) (a : Address) : Prop :=
  value = .string a.render ∨ value = .int a.packed.toNat

def GivesNumber (value : Json) (n : Nat) : Prop :=
  value = .int n

/-- What a member gives that may be left out. -/
def Given {Value : Type} (Gives : Json → Value → Prop) (absent : Value) :
    Option Json → Value → Prop
  | none, value => value = absent
  | some member, value => Gives member value

theorem given_iff {Value : Type} {Gives : Json → Value → Prop} {absent : Value} {assumed : Json}
    (h : ∀ value, Gives assumed value ↔ value = absent) (member : Option Json) (value : Value) :
    Given Gives absent member value ↔ Gives (member.getD assumed) value := by
  cases member with
  | none => exact (h value).symm
  | some _ => rfl

theorem toInt?_natCast_iff {value : Json} {n : Nat} :
    value.toInt? = some (n : Int) ↔ value.number? = some (n : ℚ) := by
  rw [toInt?_eq_some_iff, Int.cast_natCast]

theorem eq_int_of_integer? {value : Json} {n : Int}
    (number : (Argument.json value).integer? = some n) : value = .int n := by
  cases value with
  | int m =>
      cases number
      rfl
  | _ => cases number

theorem integer?_eq_some_iff {value : Json} {n : Nat} :
    (Argument.json value).integer? = some (n : Int) ↔ value.GivesNumber n := by
  cases value <;> simp [Argument.integer?, GivesNumber]

theorem argument_givesAddress_iff {value : Json} {a : Address} :
    (Argument.json value).GivesAddress a ↔ value.GivesAddress a := by
  constructor
  · intro h
    cases h with
    | written => exact .inl rfl
    | number h => exact .inr (integer?_eq_some_iff.mp h)
  · rintro (rfl | rfl)
    · exact .written
    · exact .number rfl

end Json

theorem Command.ofName?_eq_some_iff {t : Text} {command : Command} :
    ofName? t = some command ↔ t.lower = command.name := by
  unfold ofName?
  constructor
  · intro h
    split at h
    · next hname =>
        cases h
        exact hname
    · split at h
      · next hname =>
          cases h
          exact hname
      · cases h
  · intro h
    cases command with
    | request =>
        have hname : t.lower = text "request" := h
        rw [if_pos hname]
    | response =>
        have hname : t.lower = text "response" := h
        rw [if_neg (by rw [hname]; decide), if_pos hname]

theorem Command.ofName_ok_iff {t : Text} {command : Command} :
    ofName (.json (.string t)) = .ok command ↔ t.lower = command.name := by
  rw [← ofName?_eq_some_iff, ofName]
  cases ofName? t with
  | none => simp
  | some other => simp

theorem Family.ofName?_eq_some_iff {t : Text} {family : Family} :
    ofName? t = some family ↔
      t.lower = family.name ∨ family = .ip ∧ t.lower = text "ipv4" := by
  unfold ofName?
  constructor
  · intro h
    split at h
    · next hname =>
        cases h
        exact .inl hname
    · split at h
      · next hname =>
          cases h
          exact hname.imp_right fun hother => ⟨rfl, hother⟩
      · cases h
  · intro h
    cases family with
    | unspecified => rw [if_pos (by simpa [name] using h)]
    | ip =>
        have hname : t.lower = text "ip" ∨ t.lower = text "ipv4" := h.imp_right And.right
        have hother : t.lower ≠ text "unspecified" := by
          rcases hname with h | h <;> rw [h] <;> decide
        rw [if_neg hother, if_pos hname]

theorem Family.ofName_ok_iff {t : Text} {family : Family} :
    ofName (.json (.string t)) = .ok family ↔
      t.lower = family.name ∨ family = .ip ∧ t.lower = text "ipv4" := by
  rw [← ofName?_eq_some_iff, ofName]
  cases ofName? t with
  | none => simp
  | some other => simp

namespace Document

theorem command_ok_iff {value : Json} {c : Command} :
    command (.json value) = .ok c ↔ value.GivesCommand c := by
  unfold command Json.GivesCommand
  split
  · next t heq =>
      cases heq
      rw [Command.ofName_ok_iff]
      simp [Json.number?]
  · next hne =>
      rw [Command.ofArgument_ok_iff, Argument.toInt?, Json.toInt?_natCast_iff]
      constructor
      · exact .inr
      · rintro (⟨t, ht, -⟩ | hcode)
        · exact (hne t (by rw [ht])).elim
        · exact hcode

theorem family_ok_iff {value : Json} {f : Family} :
    family (.json value) = .ok f ↔ value.GivesFamily f := by
  unfold family Json.GivesFamily
  split
  · next t heq =>
      cases heq
      rw [Family.ofName_ok_iff]
      simp [Json.number?]
  · next hne =>
      rw [Family.ofArgument_ok_iff, Argument.toInt?, Json.toInt?_natCast_iff]
      constructor
      · exact .inr
      · rintro (⟨t, ht, -⟩ | hcode)
        · exact (hne t (by rw [ht])).elim
        · exact hcode

theorem required_ok_iff {name : Text} {members : List (Text × Json)} {argument : Argument} :
    required name members = .ok argument ↔
      ∃ value, Json.find? name members = some value ∧ argument = .json value := by
  unfold required
  cases Json.find? name members with
  | none => simp
  | some value => simp [eq_comm]

theorem entryMembers_ok_iff {value : Json} {members : List (Text × Json)} :
    entryMembers (.json value) = .ok members ↔ value = .object members := by
  cases value <;> simp [entryMembers]

/-! ### What is assumed without a member -/

theorem givesFamily_assumed (f : Family) :
    Json.GivesFamily (.string (text "ip")) f ↔ f = .ip := by
  have hread : family (.json (.string (text "ip"))) = .ok .ip := rfl
  rw [← family_ok_iff, hread, Except.ok.injEq, eq_comm]

theorem givesNumber_assumed (n : Nat) : Json.GivesNumber (.int 0) n ↔ n = 0 := by
  rw [Json.GivesNumber, Json.int.injEq]
  omega

theorem givesAddress_assumed (a : Address) :
    Json.GivesAddress (.string (text "0.0.0.0")) a ↔ a = ⟨0, 0, 0, 0⟩ := by
  have hread : Address.read (text "0.0.0.0") = .ok ⟨0, 0, 0, 0⟩ := Address.read_render ⟨0, 0, 0, 0⟩
  have hwritten : Json.GivesAddress (.string (text "0.0.0.0")) a ↔ text "0.0.0.0" = a.render := by
    simp [Json.GivesAddress]
  rw [hwritten, ← Address.read_ok_iff, hread, Except.ok.injEq, eq_comm]

/-! ### Entries -/

/-- What the members of an object say about an entry of a layout. -/
structure DescribesEntry (layout : Version) (members : List (Text × Json)) (e : Entry) : Prop where
  version : e.version = layout
  wellFormed : e.WellFormed
  family : ∃ f, Json.Given Json.GivesFamily .ip (Json.find? (text "address-family") members) f ∧
    e.family = .ok f
  address : ∃ value a, Json.find? (text "ip-address") members = some value ∧
    value.GivesAddress a ∧ e.address = .ok a
  metric : ∃ value n, Json.find? (text "metric") members = some value ∧
    value.GivesNumber n ∧ e.metric = .ok n
  routeTag : layout = .v2 →
    ∃ n, Json.Given Json.GivesNumber 0 (Json.find? (text "route-tag") members) n ∧
      e.routeTag = .ok n
  subnetMask : layout = .v2 →
    ∃ a, Json.Given Json.GivesAddress ⟨0, 0, 0, 0⟩ (Json.find? (text "subnet-mask") members) a ∧
      e.subnetMask = .ok a
  nextHop : layout = .v2 →
    ∃ a, Json.Given Json.GivesAddress ⟨0, 0, 0, 0⟩ (Json.find? (text "next-hop") members) a ∧
      e.nextHop = .ok a

section Entry

variable {members : List (Text × Json)} {e : Entry}

theorem optional_family_iff {f : Family} :
    family (optional (text "address-family") (.string (text "ip")) members) = .ok f ↔
      Json.Given Json.GivesFamily .ip (Json.find? (text "address-family") members) f := by
  rw [Json.given_iff givesFamily_assumed, optional, family_ok_iff]

theorem optional_number_iff {name : Text} {n : Nat} :
    (optional name (.int 0) members).integer? = some (n : Int) ↔
      Json.Given Json.GivesNumber 0 (Json.find? name members) n := by
  rw [Json.given_iff givesNumber_assumed, optional, Json.integer?_eq_some_iff]

theorem optional_address_iff {name : Text} {a : Address} :
    (optional name (.string (text "0.0.0.0")) members).GivesAddress a ↔
      Json.Given Json.GivesAddress ⟨0, 0, 0, 0⟩ (Json.find? name members) a := by
  rw [Json.given_iff givesAddress_assumed, optional, Json.argument_givesAddress_iff]

theorem family_chosen_iff {f : Family} :
    (∃ g, (Argument.number .family f.code).toInt? = some (Family.code g : Int) ∧
      e.family = .ok g) ↔ e.family = .ok f := by
  constructor
  · rintro ⟨g, hg, hfamily⟩
    have hsame := Family.ofInt?_code f
    rw [Option.some.inj hg, Family.ofInt?_code] at hsame
    cases hsame
    exact hfamily
  · exact fun hfamily => ⟨f, rfl, hfamily⟩

theorem entry_v1_iff {f : Family} {address metric : Json} :
    Entry.makeV1 (.number .family f.code) (.json address) (.json metric) = .ok e ↔
      (e.version = .v1 ∧ e.WellFormed) ∧ e.family = .ok f ∧
        (∃ a, address.GivesAddress a ∧ e.address = .ok a) ∧
        ∃ n, metric.GivesNumber n ∧ e.metric = .ok n := by
  rw [Entry.makeV1_ok_iff, family_chosen_iff]
  simp only [Json.argument_givesAddress_iff, Json.integer?_eq_some_iff]

theorem entry_v2_iff {f : Family} {address metric : Json} :
    Entry.makeV2 (.number .family f.code) (optional (text "route-tag") (.int 0) members)
        (.json address) (optional (text "subnet-mask") (.string (text "0.0.0.0")) members)
        (optional (text "next-hop") (.string (text "0.0.0.0")) members) (.json metric) = .ok e ↔
      (e.version = .v2 ∧ e.WellFormed) ∧ e.family = .ok f ∧
        (∃ n, Json.Given Json.GivesNumber 0 (Json.find? (text "route-tag") members) n ∧
          e.routeTag = .ok n) ∧
        (∃ a, address.GivesAddress a ∧ e.address = .ok a) ∧
        (∃ a, Json.Given Json.GivesAddress ⟨0, 0, 0, 0⟩
          (Json.find? (text "subnet-mask") members) a ∧ e.subnetMask = .ok a) ∧
        (∃ a, Json.Given Json.GivesAddress ⟨0, 0, 0, 0⟩
          (Json.find? (text "next-hop") members) a ∧ e.nextHop = .ok a) ∧
        ∃ n, metric.GivesNumber n ∧ e.metric = .ok n := by
  rw [Entry.makeV2_ok_iff, family_chosen_iff]
  simp only [optional_number_iff, optional_address_iff, Json.argument_givesAddress_iff,
    Json.integer?_eq_some_iff]

theorem entry_object_eq (layout : Version) {f : Family} {address metric : Json}
    (hf : Json.Given Json.GivesFamily .ip (Json.find? (text "address-family") members) f)
    (ha : Json.find? (text "ip-address") members = some address)
    (hm : Json.find? (text "metric") members = some metric) :
    entry layout (.json (.object members)) =
      match layout with
      | .v1 => Entry.makeV1 (.number .family f.code) (.json address) (.json metric)
      | .v2 =>
        Entry.makeV2 (.number .family f.code) (optional (text "route-tag") (.int 0) members)
          (.json address) (optional (text "subnet-mask") (.string (text "0.0.0.0")) members)
          (optional (text "next-hop") (.string (text "0.0.0.0")) members) (.json metric) := by
  have hmembers : entryMembers (.json (.object members)) = .ok members := rfl
  have hfamily := optional_family_iff.mpr hf
  have haddress := required_ok_iff.mpr ⟨address, ha, rfl⟩
  have hmetric := required_ok_iff.mpr ⟨metric, hm, rfl⟩
  cases layout <;> simp only [entry, bind, Except.bind, hmembers, hfamily, haddress, hmetric]

theorem entry_object_ok_iff {layout : Version} :
    entry layout (.json (.object members)) = .ok e ↔ DescribesEntry layout members e := by
  constructor
  · intro h
    obtain ⟨found, hfound, h⟩ := bind_ok_iff.mp h
    cases hfound
    obtain ⟨f, hf, h⟩ := bind_ok_iff.mp h
    obtain ⟨address, ha, h⟩ := bind_ok_iff.mp h
    obtain ⟨metric, hm, h⟩ := bind_ok_iff.mp h
    obtain ⟨v, hv, rfl⟩ := required_ok_iff.mp ha
    obtain ⟨w, hw, rfl⟩ := required_ok_iff.mp hm
    rw [optional_family_iff] at hf
    cases layout with
    | v1 =>
        obtain ⟨⟨hversion, hwell⟩, hfamily, ⟨a, haddress⟩, n, hmetric⟩ := entry_v1_iff.mp h
        exact ⟨hversion, hwell, ⟨f, hf, hfamily⟩, ⟨v, a, hv, haddress⟩, ⟨w, n, hw, hmetric⟩,
          nofun, nofun, nofun⟩
    | v2 =>
        obtain ⟨⟨hversion, hwell⟩, hfamily, htag, ⟨a, haddress⟩, hmask, hhop, n, hmetric⟩ :=
          entry_v2_iff.mp h
        exact ⟨hversion, hwell, ⟨f, hf, hfamily⟩, ⟨v, a, hv, haddress⟩, ⟨w, n, hw, hmetric⟩,
          fun _ => htag, fun _ => hmask, fun _ => hhop⟩
  · intro h
    obtain ⟨f, hf, hfamily⟩ := h.family
    obtain ⟨v, a, hv, haddress⟩ := h.address
    obtain ⟨w, n, hw, hmetric⟩ := h.metric
    rw [entry_object_eq layout hf hv hw]
    cases layout with
    | v1 =>
        exact entry_v1_iff.mpr
          ⟨⟨h.version, h.wellFormed⟩, hfamily, ⟨a, haddress⟩, n, hmetric⟩
    | v2 =>
        exact entry_v2_iff.mpr
          ⟨⟨h.version, h.wellFormed⟩, hfamily, h.routeTag rfl, ⟨a, haddress⟩, h.subnetMask rfl,
            h.nextHop rfl, n, hmetric⟩

theorem entry_ok_iff {layout : Version} {value : Json} :
    entry layout (.json value) = .ok e ↔
      ∃ members, value = .object members ∧ DescribesEntry layout members e := by
  constructor
  · intro h
    obtain ⟨members, hm, -⟩ := bind_ok_iff.mp h
    rw [entryMembers_ok_iff] at hm
    cases hm
    exact ⟨members, rfl, entry_object_ok_iff.mp h⟩
  · rintro ⟨members, rfl, h⟩
    exact entry_object_ok_iff.mpr h

end Entry

end Document

end RipWire
