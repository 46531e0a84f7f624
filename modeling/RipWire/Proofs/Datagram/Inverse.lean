import RipWire.Proofs.Datagram.Fields
import RipWire.Proofs.Datagram.Script

/-!
# Making entries and reading them

An entry is made of the arguments that give a value to each of its fields, and of
no others, and its accessors return these values. What they return makes the same
entry again, and its octets are unpacked as the entry. The words of a refusal name
the family, so that an unchecked object in its place can fail in them.
-/

namespace RipWire

open Checks

/-- Four decimal numbers of at most 255 between points. A number has no leading zero. -/
def Text.IsDottedQuad (t : Text) : Prop :=
  ∃ a b c d : Nat, (a ≤ 255 ∧ b ≤ 255 ∧ c ≤ 255 ∧ d ≤ 255) ∧
    t = ofNat a ++ 46 :: ofNat b ++ 46 :: ofNat c ++ 46 :: ofNat d

namespace Argument

/-- The number that an argument is. -/
def number? : Argument → Option ℚ
  | .json value => value.number?
  | .number _ n => some n
  | _ => none

def IsFamily (argument : Argument) : Prop :=
  argument.number? = some 0 ∨ argument.number? = some 2

/-- An integer from 0 to the highest one; no truth value is an integer here. -/
def IsIntegerTo (highest : Nat) (argument : Argument) : Prop :=
  ∃ n : Nat, argument.integer? = some (n : Int) ∧ n ≤ highest

inductive IsAddress : Argument → Prop
  | address (a : Address) : IsAddress (.address a)
  | dottedQuad {t : Text} (h : t.IsDottedQuad) : IsAddress (.json (.string t))
  | number {argument : Argument} (h : argument.IsIntegerTo 4294967295) : IsAddress argument

theorem isIntegerTo_iff {argument : Argument} {highest limit : Nat} (h : limit = highest + 1) :
    argument.IsIntegerTo highest ↔ ∃ n : Nat, argument.integer? = some (n : Int) ∧ n < limit := by
  subst h
  simp only [IsIntegerTo, Nat.lt_succ_iff]

theorem toInt?_eq_some_iff {argument : Argument} {n : Int} :
    argument.toInt? = some n ↔ argument.number? = some (n : ℚ) := by
  cases argument with
  | json value => exact Json.toInt?_eq_some_iff
  | number field m => simp [toInt?, number?]
  | _ => simp [toInt?, number?]

theorem isFamily_iff {argument : Argument} :
    argument.IsFamily ↔ ∃ f, argument.toInt? = some (Family.code f : Int) := by
  simp only [toInt?_eq_some_iff]
  constructor
  · intro h
    rcases h with h | h
    · exact ⟨.unspecified, by rw [h]; rfl⟩
    · exact ⟨.ip, by rw [h]; rfl⟩
  · rintro ⟨f, hf⟩
    cases f with
    | unspecified => exact .inl (by rw [hf]; rfl)
    | ip => exact .inr (by rw [hf]; rfl)

end Argument

theorem Text.isDottedQuad_iff {t : Text} : t.IsDottedQuad ↔ ∃ a : Address, t = a.render := by
  constructor
  · rintro ⟨a, b, c, d, ⟨ha, hb, hc, hd⟩, rfl⟩
    refine ⟨⟨UInt8.ofNat a, UInt8.ofNat b, UInt8.ofNat c, UInt8.ofNat d⟩, ?_⟩
    have hback {n : Nat} (hn : n ≤ 255) : ofNat n = Address.octetText (UInt8.ofNat n) := by
      rw [Address.octetText, UInt8.toNat_ofNat', Nat.mod_eq_of_lt (by omega)]
    rw [Address.render, hback ha, hback hb, hback hc, hback hd]
  · rintro ⟨a, rfl⟩
    have hle (octet : UInt8) : octet.toNat ≤ 255 := Nat.le_of_lt_succ octet.toNat_lt
    exact ⟨a.first.toNat, a.second.toNat, a.third.toNat, a.fourth.toNat,
      ⟨hle _, hle _, hle _, hle _⟩, rfl⟩

theorem Argument.isAddress_iff {argument : Argument} :
    argument.IsAddress ↔ ∃ a, argument.GivesAddress a := by
  constructor
  · intro h
    cases h with
    | address a => exact ⟨a, .itself⟩
    | dottedQuad h =>
        obtain ⟨a, rfl⟩ := Text.isDottedQuad_iff.mp h
        exact ⟨a, .written⟩
    | number h =>
        obtain ⟨n, hn, hle⟩ := h
        obtain ⟨a, ha⟩ := Address.exists_packed_eq (n := n) (by omega) (by omega)
        exact ⟨a, .number (by rw [hn, ha])⟩
  · rintro ⟨a, h⟩
    cases h with
    | itself => exact .address a
    | written => exact .dottedQuad (Text.isDottedQuad_iff.mpr ⟨a, rfl⟩)
    | number value =>
        have hlt := Bytes.toNat_lt_of_length_four a.packed_length
        exact .number ⟨a.packed.toNat, value, by omega⟩

/-! ### Words of a refusal -/

namespace Argument

mutual

/-- The objects of the codec that an argument is or has among its items. -/
def objects : Argument → List Object
  | .header h => [.header h]
  | .entry e => [.entry e]
  | .packet p => [.packet p]
  | .sequence _ items => objectsOfItems items
  | _ => []

def objectsOfItems : List Argument → List Object
  | [] => []
  | item :: rest => objects item ++ objectsOfItems rest

end

mutual

theorem exists_spelled : ∀ {argument : Argument}, (∀ object ∈ argument.objects, object.Sound) →
    ∃ t, argument.spelled = .ok t
  | .json _, _ => ⟨_, rfl⟩
  | .octets _, _ => ⟨_, rfl⟩
  | .address _, _ => ⟨_, rfl⟩
  | .number _ _, _ => ⟨_, rfl⟩
  | .header h, sound => (sound (.header h) List.mem_cons_self).spelled
  | .entry e, sound => (sound (.entry e) List.mem_cons_self).spelled
  | .packet p, sound => (sound (.packet p) List.mem_cons_self).spelled
  | .sequence fixed items, sound => by
      obtain ⟨t, ht⟩ := exists_spelledItems sound
      by_cases hone : fixed = true ∧ ∃ item, items = [item]
      · obtain ⟨rfl, item, rfl⟩ := hone
        rw [spelledItems] at ht
        rw [spelled, ht]
        exact ⟨_, rfl⟩
      · rw [spelled, ht]
        · exact ⟨_, rfl⟩
        · exact fun item hfixed hitems => hone ⟨hfixed, item, hitems⟩

theorem exists_spelledItems : ∀ {items : List Argument},
    (∀ object ∈ objectsOfItems items, object.Sound) → ∃ t, spelledItems items = .ok t
  | [], _ => ⟨_, rfl⟩
  | [item], sound => exists_spelled fun object hm => sound object (List.mem_append_left _ hm)
  | item :: next :: rest, sound => by
      obtain ⟨hitem, hrest⟩ := List.forall_mem_append.mp sound
      obtain ⟨t, ht⟩ := exists_spelled hitem
      obtain ⟨ts, hts⟩ := exists_spelledItems hrest
      rw [spelledItems, ht, hts]
      exact ⟨_, rfl⟩

end

theorem exists_displayed {argument : Argument}
    (sound : ∀ object ∈ argument.objects, object.Sound) : ∃ t, argument.displayed = .ok t := by
  cases argument with
  | json value => exact ⟨_, rfl⟩
  | address a => exact ⟨_, rfl⟩
  | header h => exact (sound (.header h) List.mem_cons_self).display
  | entry e => exact (sound (.entry e) List.mem_cons_self).display
  | packet p => exact (sound (.packet p) List.mem_cons_self).display
  | _ => exact exists_spelled sound

theorem exists_unchecked {argument : Argument} {fault : Fault}
    (failed : argument.displayed = .error fault) :
    ∃ object ∈ argument.objects, ¬ Checked object.argument := by
  by_contra hnone
  have sound : ∀ object ∈ argument.objects, object.Sound := by
    intro object hm
    apply Object.sound_of_checked
    by_contra hunchecked
    exact hnone ⟨object, hm, hunchecked⟩
  obtain ⟨t, ht⟩ := exists_displayed sound
  rw [ht] at failed
  cases failed

/-- The argument can not be named in a message, for an object that no checking operation built. -/
structure Wordless (argument : Argument) (fault : Fault) : Prop where
  noFamily : ¬ argument.IsFamily
  words : argument.displayed = .error fault
  unchecked : ∃ object ∈ argument.objects, ¬ Checked object.argument

end Argument

theorem CodecError.name_ne_structError (error : CodecError) : error.name ≠ text "struct.error" := by
  cases error <;> simp only [name] <;> decide

/-- The fault that has the name is neither one of a value nor one of a kind of value. -/
theorem Fault.faultClass_of_structError {fault : Fault} (h : fault.name = text "struct.error") :
    fault.faultClass = .other := by
  cases fault with
  | codec error => exact (error.name_ne_structError h).elim
  | _ => first | rfl | (simp only [name, faultClass] at h; exact absurd h (by decide))

theorem Family.wordless_of_structError {argument : Argument} {fault : Fault}
    (failed : ofArgument argument = .error fault) (h : fault.name = text "struct.error") :
    argument.Wordless fault := by
  unfold ofArgument at failed
  split at failed
  · cases failed
  · next hnone =>
      rcases bind_error_iff.mp failed with hwords | ⟨t, ht, hrefused⟩
      · constructor
        case noFamily =>
          intro hfamily
          obtain ⟨f, hf⟩ := Argument.isFamily_iff.mp hfamily
          rw [hf, Option.bind_some, ofInt?_code] at hnone
          cases hnone
        case words => exact hwords
        case unchecked => exact Argument.exists_unchecked hwords
      · cases hrefused
        cases Fault.faultClass_of_structError h

/-- Whatever goes wrong is complained about as a value or a kind of value. -/
def Handled {Result : Type} (outcome : Except Fault Result) : Prop :=
  ∀ fault, outcome = .error fault → fault.faultClass ≠ .other

theorem Handled.bind {Checked Built : Type} {check : Except Fault Checked}
    {next : Checked → Except Fault Built} (hcheck : Handled check)
    (hnext : ∀ passed, Handled (next passed)) : Handled (check >>= next) := by
  intro fault failed
  rcases bind_error_iff.mp failed with h | ⟨passed, -, h⟩
  · exact hcheck fault h
  · exact hnext passed fault h

theorem Handled.ok {Built : Type} (built : Built) : Handled (Except.ok built) :=
  fun _ failed => nomatch failed

namespace Field

theorem handled_address (argument : Argument) : Handled (address argument) := by
  intro fault failed
  rw [address, map_error_iff] at failed
  unfold Argument.address? at failed
  split at failed
  · cases failed
  · obtain ⟨found, -, rfl⟩ := mapError_error_iff.mp failed
    exact FaultClass.noConfusion
  · split at failed
    · obtain ⟨found, -, rfl⟩ := mapError_error_iff.mp failed
      exact FaultClass.noConfusion
    · cases failed
      exact FaultClass.noConfusion

theorem handled_metric (argument : Argument) : Handled (metric argument) := by
  intro fault failed
  unfold metric at failed
  split at failed
  · cases failed
    exact FaultClass.noConfusion
  · split at failed
    · cases failed
    · cases failed
      exact FaultClass.noConfusion

theorem handled_routeTag (argument : Argument) : Handled (routeTag argument) := by
  intro fault failed
  unfold routeTag at failed
  split at failed
  · cases failed
    exact FaultClass.noConfusion
  · split at failed
    · cases failed
    · cases failed
      exact FaultClass.noConfusion

end Field

namespace Entry

/-! ### Arguments that fit, and what is returned -/

structure FitV1 (family address metric : Argument) : Prop where
  family : family.IsFamily
  address : address.IsAddress
  metric : metric.IsIntegerTo 4294967295

structure FitV2 (family tag address mask hop metric : Argument) : Prop
    extends FitV1 family address metric where
  tag : tag.IsIntegerTo 65535
  mask : mask.IsAddress
  hop : hop.IsAddress

/-- The accessors give the values of the arguments, with an address for whatever gives it. -/
structure Returns (family address metric : Argument) (e : Entry) : Prop where
  family : ∃ f, e.family = .ok f ∧ family.number? = some (f.code : ℚ)
  address : ∃ a, e.address = .ok a ∧ address.GivesAddress a
  metric : ∃ n : Nat, e.metric = .ok n ∧ metric.integer? = some (n : Int)

structure ReturnsV2 (family tag address mask hop metric : Argument) (e : Entry) : Prop
    extends Returns family address metric e where
  tag : ∃ n : Nat, e.routeTag = .ok n ∧ tag.integer? = some (n : Int)
  mask : ∃ a, e.subnetMask = .ok a ∧ mask.GivesAddress a
  hop : ∃ a, e.nextHop = .ok a ∧ hop.GivesAddress a

/-- What making an entry of a layout comes to. It succeeds when the arguments fit and only then, the
entry has their values, and a number that is too large for its octets is met in words only. -/
structure Making (made : Except Fault Entry) (layout : Version) (family : Argument) (fits : Prop)
    (returned : Entry → Prop) : Prop where
  succeeds : (∃ e, made = .ok e) ↔ fits
  returned : ∀ e, made = .ok e → e.version = layout ∧ returned e
  structError : ∀ fault, made = .error fault → fault.name = text "struct.error" →
    family.Wordless fault

/-- An entry is made of what its accessors return, and unpacked from its octets. -/
structure Remade (e : Entry) : Prop where
  first : e.version = .v1 → ∃ f a n, e.family = .ok f ∧ e.address = .ok a ∧ e.metric = .ok n ∧
    makeV1 (.number .family (Family.code f)) (.address a) (.number .metric (n : Nat)) = .ok e
  second : e.version = .v2 → ∃ f t a k p n, e.family = .ok f ∧ e.routeTag = .ok t ∧
    e.address = .ok a ∧ e.subnetMask = .ok k ∧ e.nextHop = .ok p ∧ e.metric = .ok n ∧
    makeV2 (.number .family (Family.code f)) (.int (t : Nat)) (.address a) (.address k) (.address p)
      (.number .metric (n : Nat)) = .ok e
  unpacked : ∀ offset, unpack e.version e.octets offset = .ok e

theorem fitV1_iff {family address metric : Argument} :
    FitV1 family address metric ↔ ∃ e, makeV1 family address metric = .ok e := by
  rw [exists_makeV1_iff, ← Argument.isFamily_iff, ← Argument.isAddress_iff,
    ← Argument.isIntegerTo_iff rfl]
  exact ⟨fun h => ⟨h.family, h.address, h.metric⟩, fun h => ⟨h.1, h.2.1, h.2.2⟩⟩

theorem fitV2_iff {family tag address mask hop metric : Argument} :
    FitV2 family tag address mask hop metric ↔
      ∃ e, makeV2 family tag address mask hop metric = .ok e := by
  rw [exists_makeV2_iff, ← Argument.isFamily_iff, ← Argument.isAddress_iff,
    ← Argument.isAddress_iff, ← Argument.isAddress_iff, ← Argument.isIntegerTo_iff rfl,
    ← Argument.isIntegerTo_iff rfl]
  constructor
  · intro h
    exact ⟨h.family, h.tag, h.address, h.mask, h.hop, h.metric⟩
  · rintro ⟨hfamily, htag, haddress, hmask, hhop, hmetric⟩
    exact ⟨⟨hfamily, haddress, hmetric⟩, htag, hmask, hhop⟩

theorem making_v1 (family address metric : Argument) :
    Making (makeV1 family address metric) .v1 family (FitV1 family address metric)
      (Returns family address metric) := by
  constructor
  case succeeds => exact fitV1_iff.symm
  case returned =>
    intro e made
    obtain ⟨⟨hv, -⟩, ⟨f, hf, hfamily⟩, ⟨a, ha, haddress⟩, n, hn, hmetric⟩ := makeV1_ok_iff.mp made
    rw [Argument.toInt?_eq_some_iff] at hf
    exact ⟨hv, ⟨f, hfamily, by exact_mod_cast hf⟩, ⟨a, haddress, ha⟩, n, hmetric, hn⟩
  case structError =>
    intro fault failed hname
    rcases bind_error_iff.mp failed with h | ⟨f, -, failed⟩
    · exact Family.wordless_of_structError h hname
    · have hclass : fault.faultClass ≠ .other := by
        refine Handled.bind (Field.handled_address address) (fun _ => ?_) fault failed
        exact (Field.handled_metric metric).bind fun _ => Handled.ok _
      exact (hclass (Fault.faultClass_of_structError hname)).elim

theorem making_v2 (family tag address mask hop metric : Argument) :
    Making (makeV2 family tag address mask hop metric) .v2 family
      (FitV2 family tag address mask hop metric) (ReturnsV2 family tag address mask hop metric) := by
  constructor
  case succeeds => exact fitV2_iff.symm
  case returned =>
    intro e made
    obtain ⟨⟨hv, -⟩, ⟨f, hf, hfamily⟩, ⟨t, ht, htag⟩, ⟨a, ha, haddress⟩, ⟨k, hk, hmask⟩,
      ⟨p, hp, hhop⟩, n, hn, hmetric⟩ := makeV2_ok_iff.mp made
    rw [Argument.toInt?_eq_some_iff] at hf
    have hreturns : Returns family address metric e :=
      ⟨⟨f, hfamily, by exact_mod_cast hf⟩, ⟨a, haddress, ha⟩, n, hmetric, hn⟩
    exact ⟨hv, hreturns, ⟨t, htag, ht⟩, ⟨k, hmask, hk⟩, p, hhop, hp⟩
  case structError =>
    intro fault failed hname
    rcases bind_error_iff.mp failed with h | ⟨f, -, failed⟩
    · exact Family.wordless_of_structError h hname
    · have hclass : fault.faultClass ≠ .other := by
        refine Handled.bind (Field.handled_routeTag tag) (fun _ => ?_) fault failed
        refine (Field.handled_address address).bind fun _ => ?_
        refine (Field.handled_address mask).bind fun _ => ?_
        refine (Field.handled_address hop).bind fun _ => ?_
        exact (Field.handled_metric metric).bind fun _ => Handled.ok _
      exact (hclass (Fault.faultClass_of_structError hname)).elim

theorem WellFormed.remade {e : Entry} (h : e.WellFormed) : e.Remade := by
  obtain ⟨f, a, mask, hop, hreads⟩ := h.exists_reads
  have hfamily : ∃ g, (Argument.number .family f.code).toInt? = some (Family.code g : Int) ∧
      e.family = .ok g := ⟨f, rfl, hreads.family⟩
  have hmetric : ∃ n : Nat, (Argument.number .metric (e.octets.field 16 4).toNat).integer? =
      some (n : Int) ∧ e.metric = .ok n := ⟨_, rfl, hreads.metric⟩
  constructor
  case first =>
    intro hv
    exact ⟨f, a, _, hreads.family, hreads.address, hreads.metric,
      makeV1_ok_iff.mpr ⟨⟨hv, h⟩, hfamily, ⟨a, .itself, hreads.address⟩, hmetric⟩⟩
  case second =>
    intro hv
    exact ⟨f, _, a, mask, hop, _, hreads.family, hreads.routeTag, hreads.address,
      hreads.subnetMask, hreads.nextHop, hreads.metric,
      makeV2_ok_iff.mpr ⟨⟨hv, h⟩, hfamily, ⟨_, rfl, hreads.routeTag⟩, ⟨a, .itself, hreads.address⟩,
        ⟨mask, .itself, hreads.subnetMask⟩, ⟨hop, .itself, hreads.nextHop⟩, hmetric⟩⟩
  case unpacked => exact fun offset => unpack_ok_iff.mpr ⟨h.whole, h.known, h.eq_ofRecord.symm⟩

/-- An entry is made of exactly the arguments that fit, and returns their values. What an entry that
was built with checks returns makes it again, and its octets are unpacked as the entry. -/
theorem made_and_read :
    (∀ family address metric : Argument,
      Making (makeV1 family address metric) .v1 family (FitV1 family address metric)
        (Returns family address metric)) ∧
    (∀ family tag address mask hop metric : Argument,
      Making (makeV2 family tag address mask hop metric) .v2 family
        (FitV2 family tag address mask hop metric)
        (ReturnsV2 family tag address mask hop metric)) ∧
    ∀ e : Entry, Argument.Checked (.entry e) → e.Remade :=
  ⟨making_v1, making_v2, fun _ checked => WellFormed.remade checked.wellFormed⟩

/-- A truth value for the family, the highest tag, and an address given in each form. -/
theorem made_and_read_mixed_forms :
    let family := Argument.json (.bool false)
    let tag := Argument.int 65535
    let address := Argument.string (text "192.0.2.100")
    let mask := Argument.address ⟨255, 255, 255, 0⟩
    let hop := Argument.int 1
    let metric := Argument.number .metric 4294967295
    let e : Entry :=
      ⟨.v2, [0, 0, 255, 255, 192, 0, 2, 100, 255, 255, 255, 0, 0, 0, 0, 1, 255, 255, 255, 255]⟩
    FitV2 family tag address mask hop metric ∧
      makeV2 family tag address mask hop metric = .ok e ∧
      ReturnsV2 family tag address mask hop metric e ∧
      Argument.Checked (.entry e) ∧ e.Remade := by
  intro family tag address mask hop metric e
  obtain ⟨-, hmaking, hremade⟩ := made_and_read
  have hmade := hmaking family tag address mask hop metric
  have made : makeV2 family tag address mask hop metric = .ok e := rfl
  have checked : Argument.Checked (.entry e) := .makeV2 made
  exact ⟨hmade.succeeds.mp ⟨e, made⟩, made, (hmade.returned e made).2, checked, hremade e checked⟩

/-- An unchecked entry of eight octets has no metric, so there are no words that refuse it as a
family. -/
theorem exists_makeV1_structError :
    ¬ ∀ (family address metric : Argument) (fault : Fault),
      makeV1 family address metric = .error fault → fault.name ≠ text "struct.error" := by
  intro h
  exact h (.entry ⟨.v1, [0, 2, 0, 0, 10, 0, 0, 1]⟩) (.int 0) (.int 0) .fieldSize rfl rfl

end Entry

end RipWire
