import Mathlib.Data.List.Dedup
import RipWire.Argument.Items
import RipWire.Datagram.Packet
import RipWire.Proofs.Datagram.Script

/-!
# Equality and what is sent

Checked objects are equal exactly when they are of one kind and version and are
sent as the same octets: a packet can be read back from its octets, so no two
packets share them. A set therefore keeps one object for each kind, version and
octets, however the octets are hashed.
-/

namespace RipWire

open Checks

deriving instance DecidableEq for Object

inductive ObjectKind where
  | header
  | entry
  | packet
deriving DecidableEq

/-- What tells an object from others: its kind, its version and the octets that it is sent as. -/
structure Identity where
  kind : ObjectKind
  version : Version
  octets : Bytes
deriving DecidableEq

namespace Object

def kind : Object → ObjectKind
  | .header _ => .header
  | .entry _ => .entry
  | .packet _ => .packet

def version : Object → Except Fault Version
  | .header h => h.version
  | .entry e => .ok e.version
  | .packet p => p.version

/-- The octets that an object is sent as. -/
def sent : Object → Except Fault Bytes
  | .header h => .ok h.octets
  | .entry e => .ok e.octets
  | .packet p => Packet.write (.packet p)

def identity (object : Object) : Except Fault Identity := do
  let version ← object.version
  let octets ← object.sent
  .ok ⟨object.kind, version, octets⟩

def hash (hashing : Hashing) : Object → Int
  | .header h => h.hash hashing
  | .entry e => e.hash hashing
  | .packet p => p.hash hashing

def same (a b : Object) : Bool :=
  a.argument.same b.argument

/-- A set with one more object, unless it has an equal one under the same hash. -/
def inserted (hashing : Hashing) (kept : List Object) (object : Object) : List Object :=
  if kept.any fun other => other.hash hashing = object.hash hashing && other.same object then kept
  else object :: kept

def setOf (hashing : Hashing) (objects : List Object) : List Object :=
  objects.foldl (inserted hashing) []

theorem same_iff {a b : Object} : a.same b = true ↔ a = b := by
  cases a <;> cases b <;> simp [same, argument, Argument.same, Argument.json?]

theorem hash_eq_of_same (hashing : Hashing) {a b : Object} (h : a.same b = true) :
    a.hash hashing = b.hash hashing := by
  rw [same_iff.mp h]

theorem same_equivalence : Equivalence fun a b : Object => a.same b = true := by
  simp only [same_iff]
  exact eq_equivalence

/-! ### What a set keeps -/

theorem any_same_iff {kept : List Object} {object : Object} :
    (kept.any fun other => other.same object) = true ↔ object ∈ kept := by
  simp only [List.any_eq_true, same_iff, exists_eq_right]

theorem kept_eq_insert (kept : List Object) (object : Object) :
    (if kept.any fun other => other.same object then kept else object :: kept) =
      kept.insert object := by
  by_cases hm : object ∈ kept
  · rw [if_pos (any_same_iff.mpr hm), List.insert_of_mem hm]
  · rw [if_neg (mt any_same_iff.mp hm), List.insert_of_not_mem hm]

/-- The hash only decides where a set looks, not what it finds. -/
theorem inserted_eq (hashing : Hashing) (kept : List Object) (object : Object) :
    inserted hashing kept object = kept.insert object := by
  have hlooked : (kept.any fun other =>
      other.hash hashing = object.hash hashing && other.same object) =
        kept.any fun other => other.same object := by
    congr 1
    funext other
    cases hsame : other.same object with
    | true => simp [hash_eq_of_same hashing hsame]
    | false => simp
  unfold inserted
  rw [hlooked, kept_eq_insert]

/-- The objects that are left of a list when equal ones are put together. -/
def distinct (objects : List Object) : List Object :=
  objects.foldl (fun kept object => kept.insert object) []

theorem setOf_eq (hashing : Hashing) (objects : List Object) :
    setOf hashing objects = distinct objects := by
  unfold setOf distinct
  congr 1
  funext kept object
  exact inserted_eq hashing kept object

theorem foldl_arguments (objects kept : List Object) :
    (objects.map argument).foldl
        (fun kept argument => if kept.any (·.same argument) then kept else argument :: kept)
        (kept.map argument) =
      (objects.foldl (fun kept object => kept.insert object) kept).map argument := by
  induction objects generalizing kept with
  | nil => rfl
  | cons object objects ih =>
      have hany : ((kept.map argument).any fun other => other.same object.argument) =
          kept.any fun other => other.same object := List.any_map
      rw [List.map_cons, List.foldl_cons, List.foldl_cons, hany, ← ih, ← kept_eq_insert]
      split <;> rfl

theorem unhashable?_arguments (objects : List Object) :
    Argument.unhashable? (objects.map argument) = none := by
  unfold Argument.unhashable?
  rw [List.findSome?_eq_none_iff]
  intro argument hm
  obtain ⟨object, -, rfl⟩ := List.mem_map.mp hm
  cases object <;> rfl

theorem distinct_arguments (fixed : Bool) (objects : List Object) :
    Argument.distinct (.sequence fixed (objects.map argument)) =
      .ok (distinct objects).length := by
  have hcount : Argument.distinctCount (objects.map argument) = (distinct objects).length := by
    have hkept := foldl_arguments objects []
    rw [Argument.distinctCount, distinct, ← List.length_map argument, ← hkept]
    rfl
  simp only [Argument.distinct, Argument.items, bind, Except.bind, unhashable?_arguments, hcount]

theorem nodup_foldl (objects : List Object) {kept : List Object} (h : kept.Nodup) :
    (objects.foldl (fun kept object => kept.insert object) kept).Nodup := by
  induction objects generalizing kept with
  | nil => exact h
  | cons object objects ih => exact ih h.insert

theorem mem_foldl (objects kept : List Object) (object : Object) :
    object ∈ objects.foldl (fun kept object => kept.insert object) kept ↔
      object ∈ kept ∨ object ∈ objects := by
  induction objects generalizing kept with
  | nil => simp
  | cons other objects ih =>
      rw [List.foldl_cons, ih, List.mem_insert_iff, List.mem_cons]
      tauto

theorem length_distinct (objects : List Object) :
    (distinct objects).length = objects.dedup.length := by
  have hnodup : (distinct objects).Nodup := nodup_foldl objects List.nodup_nil
  apply List.Perm.length_eq
  rw [List.perm_ext_iff_of_nodup hnodup (List.nodup_dedup objects)]
  intro object
  rw [distinct, mem_foldl, List.mem_dedup]
  simp

/-! ### What checked objects are told by -/

theorem identity_ok_iff {object : Object} {identity : Identity} :
    object.identity = .ok identity ↔ object.kind = identity.kind ∧
      object.version = .ok identity.version ∧ object.sent = .ok identity.octets := by
  constructor
  · intro h
    obtain ⟨version, hv, h⟩ := bind_ok_iff.mp h
    obtain ⟨octets, ho, h⟩ := bind_ok_iff.mp h
    cases h
    exact ⟨rfl, hv, ho⟩
  · rintro ⟨hk, hv, ho⟩
    refine bind_ok_iff.mpr ⟨identity.version, hv, bind_ok_iff.mpr ⟨identity.octets, ho, ?_⟩⟩
    rw [hk]

theorem exists_identity {object : Object} (h : Argument.Checked object.argument) :
    ∃ identity, object.identity = .ok identity := by
  have hwellFormed := h.wellFormed
  cases object with
  | header header =>
      obtain ⟨command, version, hheader⟩ := hwellFormed
      have hv : header.version = .ok version := by
        rw [hheader]
        exact Header.version_ofCodes command version
      exact ⟨⟨.header, version, header.octets⟩, identity_ok_iff.mpr ⟨rfl, hv, rfl⟩⟩
  | entry e => exact ⟨⟨.entry, e.version, e.octets⟩, rfl⟩
  | packet p =>
      obtain ⟨version, hp⟩ := hwellFormed
      exact ⟨⟨.packet, version, p.octets⟩,
        identity_ok_iff.mpr ⟨rfl, hp.version_ok, Packet.write_of_wellFormed hp⟩⟩

end Object

theorem Packet.eq_of_write_eq {p q : Packet} (hp : Argument.Checked (.packet p))
    (hq : Argument.Checked (.packet q)) (h : write (.packet p) = write (.packet q)) : p = q := by
  obtain ⟨version, hp⟩ := hp.wellFormed
  obtain ⟨other, hq⟩ := hq.wellFormed
  rw [write_of_wellFormed hp, write_of_wellFormed hq] at h
  have hread := read_octets hp
  rw [Except.ok.inj h, read_octets hq] at hread
  exact (Except.ok.inj hread).symm

theorem Entry.ext_iff {d e : Entry} : d = e ↔ d.version = e.version ∧ d.octets = e.octets := by
  cases d
  cases e
  simp

namespace Object

/-- No two checked objects share kind, version and octets. -/
theorem eq_of_identity {a b : Object} (ha : Argument.Checked a.argument)
    (hb : Argument.Checked b.argument) {identity : Identity} (hia : a.identity = .ok identity)
    (hib : b.identity = .ok identity) : a = b := by
  obtain ⟨hka, hva, hoa⟩ := identity_ok_iff.mp hia
  obtain ⟨hkb, hvb, hob⟩ := identity_ok_iff.mp hib
  have hkind := hka.trans hkb.symm
  have hversion := hva.trans hvb.symm
  have hsent := hoa.trans hob.symm
  cases a <;> cases b <;> cases hkind
  case header.header h other =>
    cases h
    cases other
    cases hsent
    rfl
  case entry.entry d e =>
    rw [Entry.ext_iff.mpr ⟨Except.ok.inj hversion, Except.ok.inj hsent⟩]
  case packet.packet p q => rw [Packet.eq_of_write_eq ha hb hsent]

section Identities

variable {objects : List Object} {identities : List Identity}

theorem mem_identities_iff (told : objects.mapM Object.identity = .ok identities)
    (checked : ∀ object ∈ objects, Argument.Checked object.argument) {object : Object}
    (hobject : Argument.Checked object.argument) {identity : Identity}
    (hidentity : object.identity = .ok identity) :
    identity ∈ identities ↔ object ∈ objects := by
  constructor
  · intro hm
    obtain ⟨other, hother, hi⟩ := mapM_ok_mem told hm
    rw [eq_of_identity hobject (checked other hother) hidentity hi]
    exact hother
  · intro hm
    obtain ⟨other, hother, hi⟩ := mapM_ok_forall told hm
    rw [hidentity] at hi
    rw [Except.ok.inj hi]
    exact hother

theorem length_dedup_identities (told : objects.mapM Object.identity = .ok identities)
    (checked : ∀ object ∈ objects, Argument.Checked object.argument) :
    objects.dedup.length = identities.dedup.length := by
  have hall := mapM_ok_iff.mp told
  clear told
  induction hall with
  | nil => rfl
  | @cons object identity objects identities hfirst hrest ih =>
      obtain ⟨hobject, hobjects⟩ := List.forall_mem_cons.mp checked
      have hmem := mem_identities_iff (mapM_ok_iff.mpr hrest) hobjects hobject hfirst
      by_cases hm : object ∈ objects
      · rw [List.dedup_cons_of_mem hm, List.dedup_cons_of_mem (hmem.mpr hm), ih hobjects]
      · rw [List.dedup_cons_of_notMem hm, List.dedup_cons_of_notMem (mt hmem.mp hm),
          List.length_cons, List.length_cons, ih hobjects]

end Identities

end Object

/-- Two packets are equal as far as they are written alike. -/
structure Packet.ToldByOctets (p q : Packet) : Prop where
  octets : ∃ octets others, write (.packet p) = .ok octets ∧ write (.packet q) = .ok others ∧
    (Argument.same (.packet p) (.packet q) = true ↔ octets = others)
  versions : p.version ≠ q.version → Argument.same (.packet p) (.packet q) = false
  negation : Argument.differs (.packet p) (.packet q) = !Argument.same (.packet p) (.packet q)

/-- Objects are equal when kind, version and octets are, and a set has one of each. -/
structure Object.ToldByIdentity (objects : List Object) : Prop where
  same_iff : ∀ a ∈ objects, ∀ b ∈ objects, ∃ i j, a.identity = .ok i ∧ b.identity = .ok j ∧
    (a.same b = true ↔ i = j)
  equivalence : Equivalence fun a b : { object // object ∈ objects } => a.val.same b.val = true
  hash_eq : ∀ (hashing : Hashing), ∀ a ∈ objects, ∀ b ∈ objects, a.same b = true →
    a.hash hashing = b.hash hashing
  count : ∃ identities, objects.mapM Object.identity = .ok identities ∧
    (∀ fixed, Argument.distinct (.sequence fixed (objects.map Object.argument)) =
      .ok identities.dedup.length) ∧
    ∀ hashing, (Object.setOf hashing objects).length = identities.dedup.length

namespace Object

theorem toldByOctets {p q : Packet} (hp : Argument.Checked (.packet p))
    (hq : Argument.Checked (.packet q)) : p.ToldByOctets q := by
  have hsame : Argument.same (.packet p) (.packet q) = true ↔ p = q := by simp [Argument.same]
  constructor
  case octets =>
    obtain ⟨version, hwp⟩ := hp.wellFormed
    obtain ⟨other, hwq⟩ := hq.wellFormed
    have hwrite := Packet.write_of_wellFormed hwp
    have hwriteOther := Packet.write_of_wellFormed hwq
    refine ⟨p.octets, q.octets, hwrite, hwriteOther, hsame.trans ⟨congrArg _, ?_⟩⟩
    intro hoctets
    apply Packet.eq_of_write_eq hp hq
    rw [hwrite, hwriteOther, hoctets]
  case versions =>
    intro hversions
    rw [← Bool.not_eq_true, hsame]
    exact fun heq => hversions (congrArg Packet.version heq)
  case negation => rfl

theorem toldByIdentity {objects : List Object}
    (checked : ∀ object ∈ objects, Argument.Checked object.argument) : ToldByIdentity objects := by
  constructor
  case same_iff =>
    intro a ha b hb
    obtain ⟨i, hi⟩ := exists_identity (checked a ha)
    obtain ⟨j, hj⟩ := exists_identity (checked b hb)
    refine ⟨i, j, hi, hj, Object.same_iff.trans ⟨?_, ?_⟩⟩
    · intro heq
      rw [heq, hj] at hi
      exact (Except.ok.inj hi).symm
    · intro heq
      rw [← heq] at hj
      exact eq_of_identity (checked a ha) (checked b hb) hi hj
  case equivalence => exact same_equivalence.comap Subtype.val
  case hash_eq => exact fun hashing a _ b _ h => hash_eq_of_same hashing h
  case count =>
    obtain ⟨identities, told⟩ :=
      mapM_ok_of_forall fun object hm => exists_identity (checked object hm)
    have hlength := length_dedup_identities told checked
    refine ⟨identities, told, ?_, ?_⟩
    · intro fixed
      rw [distinct_arguments, length_distinct, hlength]
    · intro hashing
      rw [setOf_eq, length_distinct, hlength]

/-- Checked packets are equal exactly when they are written as the same octets, entries when layout
and octets are the same, and what a set keeps of checked objects is told by what they are sent as. -/
theorem same_iff_sent_alike :
    (∀ p q : Packet, Argument.Checked (.packet p) → Argument.Checked (.packet q) →
      p.ToldByOctets q) ∧
    (∀ d e : Entry, Argument.same (.entry d) (.entry e) = true ↔
      d.version = e.version ∧ d.octets = e.octets) ∧
    ∀ objects : List Object, (∀ object ∈ objects, Argument.Checked object.argument) →
      ToldByIdentity objects := by
  refine ⟨fun p q hp hq => toldByOctets hp hq, ?_, fun objects checked => toldByIdentity checked⟩
  intro d e
  simp only [Argument.same, decide_eq_true_eq]
  exact Entry.ext_iff

/-- A header and a packet of the same octets, entries of both layouts with the same octets, and
some of them built once more from a header and a record with stray octets. -/
theorem same_iff_sent_alike_mixed :
    let h := Header.ofCodes .request .v1
    let p := Packet.carrying .request .v1 []
    let record : Bytes := [0, 2, 0, 0, 10, 0, 0, 1, 0, 0, 0, 0, 0, 0, 0, 0, 0, 0, 0, 3]
    let objects : List Object :=
      [.header h, .packet p, .entry ⟨.v1, record⟩, .entry ⟨.v2, record⟩, .packet p, .header h,
        .entry ⟨.v1, record⟩]
    (∀ object ∈ objects, Argument.Checked object.argument) ∧
      Argument.same (.header h) (.packet p) = false ∧
      Argument.same (.packet p) (.packet p) = true ∧
      Argument.distinct (.sequence false (objects.map argument)) = .ok 4 ∧
      ∀ hashing, (setOf hashing objects).length = 4 := by
  intro h p record objects
  have hheader : Argument.Checked (.header h) :=
    .unpackHeader (show Header.unpack [1, 1, 9, 9] = .ok h from rfl)
  have hpacket : Argument.Checked (.packet p) :=
    .read (show Packet.read [1, 1, 9, 9] = .ok p from rfl)
  have hentry (layout : Version) : Argument.Checked (.entry ⟨layout, record⟩) := by
    cases layout with
    | v1 => exact .unpackEntry (show Entry.unpack .v1
        [0, 2, 9, 9, 10, 0, 0, 1, 0, 0, 0, 0, 0, 0, 0, 0, 0, 0, 0, 3] 0 = .ok ⟨.v1, record⟩ from rfl)
    | v2 => exact .unpackEntry (show Entry.unpack .v2 record 0 = .ok ⟨.v2, record⟩ from rfl)
  have checked : ∀ object ∈ objects, Argument.Checked object.argument := by
    simp only [objects, List.forall_mem_cons]
    exact ⟨hheader, hpacket, hentry .v1, hentry .v2, hpacket, hheader, hentry .v1, nofun⟩
  obtain ⟨htold, -, hall⟩ := same_iff_sent_alike
  obtain ⟨identities, hmapM, hdistinct, hset⟩ := (hall objects checked).count
  have hidentities : objects.mapM Object.identity = .ok
      [⟨.header, .v1, [1, 1, 0, 0]⟩, ⟨.packet, .v1, [1, 1, 0, 0]⟩, ⟨.entry, .v1, record⟩,
        ⟨.entry, .v2, record⟩, ⟨.packet, .v1, [1, 1, 0, 0]⟩, ⟨.header, .v1, [1, 1, 0, 0]⟩,
        ⟨.entry, .v1, record⟩] := rfl
  rw [hidentities] at hmapM
  cases hmapM
  have hsame : Argument.same (.packet p) (.packet p) = true := by
    obtain ⟨octets, others, hwrite, hother, hiff⟩ := (htold p p hpacket hpacket).octets
    exact hiff.mpr (Except.ok.inj (hwrite.symm.trans hother))
  exact ⟨checked, rfl, hsame, (hdistinct false).trans rfl, fun hashing => (hset hashing).trans rfl⟩

end Object

end RipWire
