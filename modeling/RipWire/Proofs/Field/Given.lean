import RipWire.Datagram.Field
import RipWire.Proofs.Fault.Checks
import RipWire.Proofs.Field.Address
import RipWire.Proofs.Number.Equal
import RipWire.Proofs.Octets.Records

/-!
# What an argument gives

Which arguments a field takes, and what it gets from them. A field of a fixed
width takes the numbers that fit it, so the number that its octets hold says
which argument it was given. A coded field takes whatever equals a code.
-/

namespace RipWire

open Checks

namespace Address

theorem ofBytes_ok_iff {bytes : Bytes} {a : Address} : ofBytes bytes = .ok a ↔ bytes = a.packed := by
  constructor
  · intro h
    unfold ofBytes at h
    split at h
    · cases h
      rfl
    · cases h
  · rintro rfl
    exact ofBytes_packed a

theorem ofInt_ok_iff {n : Int} {a : Address} : ofInt n = .ok a ↔ n = a.packed.toNat := by
  unfold ofInt
  constructor
  · intro h
    split at h
    · cases h
    · split at h
      · cases h
      · rw [ofBytes_ok_iff] at h
        rw [← h, Bytes.toNat_ofNat32 (by omega)]
        omega
  · rintro rfl
    have hlt := Bytes.toNat_lt_of_length_four a.packed_length
    rw [if_neg (by omega), if_neg (by omega), Int.toNat_natCast,
      Bytes.ofNat32_toNat a.packed_length, ofBytes_packed]

theorem exists_packed_eq {n : Int} (hlow : 0 ≤ n) (hhigh : n ≤ 4294967295) :
    ∃ a : Address, n = a.packed.toNat :=
  ⟨_, ofInt_ok_iff.mp (by
    rw [ofInt, if_neg (by omega), if_neg (by omega)]
    rfl)⟩

end Address

namespace Argument

/-- An address is given as itself, in its written form or as the number of its octets. -/
inductive GivesAddress (a : Address) : Argument → Prop
  | itself : GivesAddress a (.address a)
  | written : GivesAddress a (.json (.string a.render))
  | number {argument : Argument} (value : argument.integer? = some (a.packed.toNat : Int)) :
      GivesAddress a argument

theorem address?_ok_iff {argument : Argument} {a : Address} :
    argument.address? = .ok a ↔ argument.GivesAddress a := by
  constructor
  · intro h
    unfold address? at h
    split at h
    · cases h
      exact .itself
    · rw [mapError_ok_iff, Address.read_ok_iff] at h
      rw [h]
      exact .written
    · split at h
      · next n hn =>
          rw [mapError_ok_iff, Address.ofInt_ok_iff] at h
          exact .number (by rw [hn, h])
      · cases h
  · intro h
    cases h with
    | itself => rfl
    | written => rw [address?, mapError_ok_iff, Address.read_ok_iff]
    | number value =>
        unfold address?
        split
        · cases value
        · cases value
        · rw [value]
          exact mapError_ok_iff.mpr (Address.ofInt_ok_iff.mpr rfl)

end Argument

namespace Field

theorem address_ok_iff {argument : Argument} {octets : Bytes} :
    address argument = .ok octets ↔ ∃ a : Address, argument.GivesAddress a ∧ octets = a.packed := by
  rw [address, map_ok_iff]
  constructor
  · rintro ⟨a, ha, rfl⟩
    exact ⟨a, Argument.address?_ok_iff.mp ha, rfl⟩
  · rintro ⟨a, ha, rfl⟩
    exact ⟨a, Argument.address?_ok_iff.mpr ha, rfl⟩

theorem exists_address_iff {argument : Argument} :
    (∃ octets, address argument = .ok octets) ↔ ∃ a : Address, argument.GivesAddress a := by
  simp only [address_ok_iff]
  exact ⟨fun ⟨_, a, ha, _⟩ => ⟨a, ha⟩, fun ⟨a, ha⟩ => ⟨a.packed, a, ha, rfl⟩⟩

theorem metric_ok_iff {argument : Argument} {octets : Bytes} :
    metric argument = .ok octets ↔
      octets.length = 4 ∧ argument.integer? = some (octets.toNat : Int) := by
  have hhighest : Metric.highest = 4294967295 := rfl
  unfold metric
  cases hn : argument.integer? with
  | none => simp
  | some n =>
      simp only [Option.some.injEq]
      constructor
      · intro h
        split at h
        · cases h
          rw [Bytes.toNat_ofNat32 (by omega)]
          exact ⟨rfl, by omega⟩
        · cases h
      · rintro ⟨hl, rfl⟩
        have hlt := Bytes.toNat_lt_of_length_four hl
        rw [if_pos (by omega), Int.toNat_natCast, Bytes.ofNat32_toNat hl]

theorem exists_metric_iff {argument : Argument} :
    (∃ octets, metric argument = .ok octets) ↔
      ∃ n : Nat, argument.integer? = some (n : Int) ∧ n < 4294967296 := by
  simp only [metric_ok_iff]
  constructor
  · rintro ⟨octets, hl, hn⟩
    exact ⟨_, hn, Bytes.toNat_lt_of_length_four hl⟩
  · rintro ⟨n, hn, hlt⟩
    exact ⟨Bytes.ofNat32 n, rfl, by rw [Bytes.toNat_ofNat32 hlt, hn]⟩

theorem routeTag_ok_iff {argument : Argument} {octets : Bytes} :
    routeTag argument = .ok octets ↔
      octets.length = 2 ∧ argument.integer? = some (octets.toNat : Int) := by
  unfold routeTag
  cases hn : argument.integer? with
  | none => simp
  | some n =>
      simp only [Option.some.injEq]
      constructor
      · intro h
        split at h
        · cases h
          rw [Bytes.toNat_ofNat16 (by omega)]
          exact ⟨rfl, by omega⟩
        · cases h
      · rintro ⟨hl, rfl⟩
        have hlt := Bytes.toNat_lt_of_length_two hl
        rw [if_pos (by omega), Int.toNat_natCast, Bytes.ofNat16_toNat hl]

theorem exists_routeTag_iff {argument : Argument} :
    (∃ octets, routeTag argument = .ok octets) ↔
      ∃ n : Nat, argument.integer? = some (n : Int) ∧ n < 65536 := by
  simp only [routeTag_ok_iff]
  constructor
  · rintro ⟨octets, hl, hn⟩
    exact ⟨_, hn, Bytes.toNat_lt_of_length_two hl⟩
  · rintro ⟨n, hn, hlt⟩
    exact ⟨Bytes.ofNat16 n, rfl, by rw [Bytes.toNat_ofNat16 hlt, hn]⟩

end Field

/-! ### Coded fields -/

theorem Json.unhashable_of_key {value : Json} {fault : Fault} (h : value.key = .error fault) :
    fault = .unhashable value.kind := by
  unfold Json.key at h
  split at h
  · cases h
  · cases h
  · cases h
  · split at h <;> cases h
  · cases h
  all_goals
    cases h
    rfl

namespace Argument

theorem refused_ne_ok {α : Type} (argument : Argument) (fault : Fault) (value : α) :
    argument.refused fault ≠ .ok value := by
  intro h
  obtain ⟨-, -, h⟩ := bind_ok_iff.mp h
  cases h

theorem keyOfItems_ne_integer (items : List Argument) (n : Int) :
    keyOfItems items ≠ .ok (.integer n) := by
  cases items with
  | nil => nofun
  | cons item rest =>
      intro h
      obtain ⟨first, -, h⟩ := bind_ok_iff.mp h
      obtain ⟨others, -, h⟩ := bind_ok_iff.mp h
      cases h

theorem key_eq_integer_iff {argument : Argument} {n : Int} :
    argument.key = .ok (.integer n) ↔ argument.toInt? = some n := by
  cases argument with
  | json value => exact Json.key_eq_integer_iff
  | sequence fixed items =>
      cases fixed with
      | true => exact iff_of_false (keyOfItems_ne_integer items n) nofun
      | false => exact iff_of_false nofun nofun
  | number field m => simp [key, toInt?]
  | _ => exact iff_of_false nofun nofun

theorem toInt?_of_key {argument : Argument} {key : Key} {n : Int} (hkey : argument.key = .ok key)
    (hn : key.toInt? = some n) : argument.toInt? = some n := by
  rw [Key.toInt?_eq_some_iff] at hn
  rw [hn] at hkey
  exact key_eq_integer_iff.mp hkey

end Argument

theorem Command.ofArgument_ok_iff {argument : Argument} {offset : Option Int} {command : Command} :
    ofArgument argument offset = .ok command ↔ argument.toInt? = some (command.code : Int) := by
  constructor
  · intro h
    obtain ⟨key, hkey, h⟩ := bind_ok_iff.mp h
    split at h
    · next found hfound =>
        cases h
        obtain ⟨n, hn, hcode⟩ := Option.bind_eq_some_iff.mp hfound
        rw [Argument.toInt?_of_key hkey hn, code_of_ofInt? hcode]
    · exact (Argument.refused_ne_ok _ _ _ h).elim
  · intro h
    refine bind_ok_iff.mpr ⟨.integer command.code, Argument.key_eq_integer_iff.mpr h, ?_⟩
    rw [Key.toInt?, Option.bind_some, ofInt?_code]

theorem Version.known_ok_iff {argument : Argument} {version : Version} :
    known argument = .ok version ↔ argument.toInt? = some (version.code : Int) := by
  constructor
  · intro h
    obtain ⟨key, hkey, h⟩ := bind_ok_iff.mp h
    split at h
    · next found hfound =>
        cases h
        obtain ⟨n, hn, hcode⟩ := Option.bind_eq_some_iff.mp hfound
        rw [Argument.toInt?_of_key hkey hn, code_of_ofInt? hcode]
    · exact (Argument.refused_ne_ok _ _ _ h).elim
  · intro h
    refine bind_ok_iff.mpr ⟨.integer version.code, Argument.key_eq_integer_iff.mpr h, ?_⟩
    rw [Key.toInt?, Option.bind_some, ofInt?_code]

theorem Family.ofArgument_ok_iff {argument : Argument} {family : Family} :
    ofArgument argument = .ok family ↔ argument.toInt? = some (family.code : Int) := by
  unfold ofArgument
  constructor
  · intro h
    split at h
    · next found hfound =>
        cases h
        obtain ⟨n, hn, hcode⟩ := Option.bind_eq_some_iff.mp hfound
        rw [hn, code_of_ofInt? hcode]
    · exact (Argument.refused_ne_ok _ _ _ h).elim
  · intro h
    rw [h, Option.bind_some, ofInt?_code]

end RipWire
