import RipWire.Proofs.Datagram.Framing
import RipWire.Proofs.Field.Given

/-!
# A registry that is written once

After any number of offers the registry holds, for every version, the first class
that was offered for it, and the classes of the protocol's own versions are ahead
of all offers. Datagrams are therefore read as if no class had been offered.
-/

namespace RipWire

open Checks

/-- One key stands for both. -/
def Argument.SameKey (a b : Argument) : Prop :=
  ∃ key, a.key = .ok key ∧ b.key = .ok key

theorem Argument.sameKey_number_iff {argument : Argument} (field : FieldKind) {n : Int} :
    argument.SameKey (.number field n) ↔ argument.toInt? = some n := by
  rw [← key_eq_integer_iff]
  constructor
  · rintro ⟨key, h, hn⟩
    cases hn
    exact h
  · exact fun h => ⟨.integer n, h, rfl⟩

namespace Argument

mutual

theorem unhashable_of_key {fault : Fault} :
    ∀ {argument : Argument}, argument.key = .error fault → ∃ kind, fault = .unhashable kind
  | .json value, h => ⟨value.kind, Json.unhashable_of_key h⟩
  | .sequence true items, h => unhashable_of_keyOfItems (show keyOfItems items = .error fault from h)
  | .sequence false items, h => by
      cases h
      exact ⟨_, rfl⟩

theorem unhashable_of_keyOfItems {fault : Fault} :
    ∀ {items : List Argument}, keyOfItems items = .error fault → ∃ kind, fault = .unhashable kind
  | item :: rest, h => by
      rcases bind_error_iff.mp h with hfirst | ⟨first, -, h⟩
      · exact unhashable_of_key hfirst
      rcases bind_error_iff.mp h with hrest | ⟨others, -, h⟩
      · exact unhashable_of_keyOfItems hrest
      · cases h

end

end Argument

namespace PacketClass

/-- The classes that the protocol has of its own. -/
def standard : List PacketClass :=
  [ofVersion .v1, ofVersion .v2]

/-- The first class of a list that an argument looks up. -/
def FirstFor (classes : List PacketClass) (version : Argument) (c : PacketClass) : Prop :=
  ∃ before behind, classes = before ++ c :: behind ∧ c.version.SameKey version ∧
    ∀ other ∈ before, ¬ other.version.SameKey version

/-- Whether a class is put under a key. -/
def hasKey (key : Key) (c : PacketClass) : Bool :=
  match c.version.key with
  | .ok own => own = key
  | .error _ => false

theorem hasKey_iff {key : Key} {c : PacketClass} :
    c.hasKey key = true ↔ c.version.key = .ok key := by
  unfold hasKey
  cases c.version.key with
  | error fault => simp
  | ok own => simp

theorem sameKey_iff {key : Key} {version : Argument} (h : version.key = .ok key)
    (c : PacketClass) : c.version.SameKey version ↔ c.hasKey key = true := by
  rw [hasKey_iff]
  constructor
  · rintro ⟨other, hc, hother⟩
    rw [h] at hother
    cases hother
    exact hc
  · exact fun hc => ⟨key, hc, h⟩

theorem firstFor_iff {key : Key} {version : Argument} (h : version.key = .ok key)
    {classes : List PacketClass} {c : PacketClass} :
    FirstFor classes version c ↔ classes.find? (hasKey key) = some c := by
  rw [List.find?_eq_some_iff_append, FirstFor]
  constructor
  · rintro ⟨before, behind, rfl, hc, hbefore⟩
    refine ⟨(sameKey_iff h c).mp hc, before, behind, rfl, ?_⟩
    intro other hm
    simpa using mt (sameKey_iff h other).mpr (hbefore other hm)
  · rintro ⟨hc, before, behind, rfl, hbefore⟩
    refine ⟨before, behind, rfl, (sameKey_iff h c).mpr hc, ?_⟩
    intro other hm hother
    have hnot := hbefore other hm
    rw [(sameKey_iff h other).mp hother] at hnot
    cases hnot

theorem find?_standard (v : Version) :
    standard.find? (hasKey (.integer v.code)) = some (ofVersion v) := by
  cases v <;> rfl

end PacketClass

namespace Registry

/-- The registry holds the first class of the history under every key. -/
def Holds (r : Registry) (history : List PacketClass) : Prop :=
  ∀ key, r.find? key = history.find? (PacketClass.hasKey key)

theorem holds_initial : initial.Holds PacketClass.standard := by
  intro key
  have hone : (PacketClass.ofVersion .v1).version.key = .ok (.integer 1) := rfl
  have htwo : (PacketClass.ofVersion .v2).version.key = .ok (.integer 2) := rfl
  by_cases h1 : Key.integer 1 = key
  · subst h1
    rfl
  by_cases h2 : Key.integer 2 = key
  · subst h2
    rfl
  simp [find?, initial, PacketClass.standard, PacketClass.hasKey, hone, htwo, h1, h2]

theorem Holds.concat {r : Registry} {history : List PacketClass} (h : r.Holds history)
    (c : PacketClass) : (r.offered c).Holds (history ++ [c]) := by
  intro key
  rw [List.find?_append, ← h key]
  unfold offered register
  cases hkey : c.version.key with
  | error fault =>
      have hnot : c.hasKey key = false := by simp [PacketClass.hasKey, hkey]
      simp [bind, Except.bind, hnot]
  | ok own =>
      have hown : c.hasKey key = decide (own = key) := by simp [PacketClass.hasKey, hkey]
      cases hfound : r.find? own with
      | some first =>
          -- The class of the offer stands behind one of its key, where no look-up gets to it.
          by_cases hk : own = key
          · subst hk
            simp [bind, Except.bind, hfound]
          · simp [bind, Except.bind, hfound, hown, hk]
      | none =>
          simp only [bind, Except.bind, hfound]
          rw [find?_append]
          by_cases hk : own = key <;> simp [hown, hk]

theorem Holds.offeredAll {r : Registry} {history : List PacketClass} (h : r.Holds history)
    (classes : List PacketClass) : (r.offeredAll classes).Holds (history ++ classes) := by
  induction classes generalizing r history with
  | nil =>
      rw [List.append_nil]
      exact h
  | cons c classes ih =>
      rw [List.append_cons]
      exact ih (h.concat c)

section Holds

variable {r : Registry} {history : List PacketClass} (h : r.Holds history)

include h

theorem Holds.classOf_ok_iff {version : Argument} {c : PacketClass} :
    r.classOf version = .ok c ↔ PacketClass.FirstFor history version c := by
  unfold classOf
  rw [bind_ok_iff]
  constructor
  · rintro ⟨key, hkey, hfound⟩
    rw [PacketClass.firstFor_iff hkey, ← h key]
    split at hfound
    · next other hother =>
        cases hfound
        exact hother
    · obtain ⟨-, -, hfault⟩ := bind_ok_iff.mp hfound
      cases hfault
  · intro hfirst
    obtain ⟨before, behind, -, ⟨key, -, hkey⟩, -⟩ := id hfirst
    rw [PacketClass.firstFor_iff hkey, ← h key] at hfirst
    exact ⟨key, hkey, by rw [hfirst]⟩

theorem Holds.find?_isSome_iff {version : Argument} {key : Key} (hkey : version.key = .ok key) :
    (∃ c, r.find? key = some c) ↔ ∃ other ∈ history, other.version.SameKey version := by
  rw [h key]
  constructor
  · rintro ⟨c, hc⟩
    exact ⟨c, List.mem_of_find?_eq_some hc,
      (PacketClass.sameKey_iff hkey c).mpr (List.find?_some hc)⟩
  · rintro ⟨other, hm, hother⟩
    have hsome : (history.find? (PacketClass.hasKey key)).isSome = true :=
      List.find?_isSome.mpr ⟨other, hm, (PacketClass.sameKey_iff hkey other).mp hother⟩
    exact Option.isSome_iff_exists.mp hsome

theorem Holds.taken_iff (c : PacketClass) :
    r.register c = .error .versionTaken ↔
      ∃ other ∈ history, other.version.SameKey c.version := by
  unfold register
  cases hkey : c.version.key with
  | error fault =>
      constructor
      · intro hfault
        cases hfault
        obtain ⟨kind, hkind⟩ := Argument.unhashable_of_key hkey
        cases hkind
      · rintro ⟨other, -, key, -, hc⟩
        rw [hkey] at hc
        cases hc
  | ok key =>
      rw [← h.find?_isSome_iff hkey]
      cases hfound : r.find? key with
      | some first => simp [bind, Except.bind, hfound]
      | none => simp [bind, Except.bind, hfound]

end Holds

end Registry

namespace Packet

/-- Reading asks the registry for the versions of the protocol only. -/
theorem readWith_congr {one two : Registry}
    (h : ∀ v : Version, one.classOf (.number .version v.code) = two.classOf (.number .version v.code))
    (octets : Bytes) : readWith one octets = readWith two octets := by
  unfold readWith
  simp only [h]

end Packet

namespace Registry

/-- A registry after a history of offers, of which the first for a version counts and no later one
has any effect. -/
structure WriteOnce (history : List PacketClass) (r : Registry) : Prop where
  taken : ∀ c, (r.register c = .error .versionTaken ∧ r.offered c = r) ↔
    ∃ other ∈ history, other.version.SameKey c.version
  first : ∀ version c, r.classOf version = .ok c ↔ PacketClass.FirstFor history version c
  free : ∀ version, (∀ other ∈ history, ¬ other.version.SameKey version) →
    ∃ fault, r.classOf version = .error fault
  standard : ∀ v version, version.toInt? = some (Version.code v : Int) →
    r.classOf version = .ok (.ofVersion v)
  read : ∀ octets, Packet.readWith r octets = Packet.read octets

theorem writeOnce_offeredAll (classes : List PacketClass) :
    WriteOnce (PacketClass.standard ++ classes) (initial.offeredAll classes) := by
  have h := holds_initial.offeredAll classes
  have hstandard : ∀ v version, version.toInt? = some (Version.code v : Int) →
      (initial.offeredAll classes).classOf version = .ok (.ofVersion v) := by
    intro v version hv
    obtain ⟨key, hkey, hcode⟩ := (Argument.sameKey_number_iff .version).mpr hv
    cases hcode
    rw [h.classOf_ok_iff, PacketClass.firstFor_iff hkey, List.find?_append,
      PacketClass.find?_standard]
    rfl
  constructor
  case taken =>
    intro c
    rw [← h.taken_iff c]
    exact ⟨And.left, fun hrefused => ⟨hrefused, offered_of_error hrefused⟩⟩
  case first => exact fun version c => h.classOf_ok_iff
  case free =>
    intro version hfree
    cases hfound : (initial.offeredAll classes).classOf version with
    | error fault => exact ⟨fault, rfl⟩
    | ok c =>
        obtain ⟨before, behind, heq, hc, -⟩ := h.classOf_ok_iff.mp hfound
        exact (hfree c (heq ▸ by simp) hc).elim
  case standard => exact hstandard
  case read =>
    refine Packet.readWith_congr fun v => ?_
    rw [Packet.classOf_initial]
    exact hstandard v _ rfl

/-- A truth value is taken for the version that it equals. -/
example : initial.register ⟨text "Added", .json (.bool true), .v2⟩ = .error .versionTaken := rfl

end Registry

end RipWire
