import RipWire.Proofs.Datagram.Soundness

/-!
# Scripts of checked operations

A script is a sequence of steps, each of which calls one of the operations that
check what they build, with values and with objects that earlier steps built.
What a step builds is kept; a step that fails, or that refers to an object that
was not built, leaves nothing behind. One step builds checked objects when it is
given checked ones, so a whole script does.
-/

namespace RipWire

open Checks

inductive Object where
  | header (h : Header)
  | entry (e : Entry)
  | packet (p : Packet)

def Object.argument : Object → Argument
  | .header h => .header h
  | .entry e => .entry e
  | .packet p => .packet p

def Object.Sound : Object → Prop
  | .header h => h.Sound
  | .entry e => e.Sound
  | .packet p => p.Sound

/-- What a step hands to an operation: a value that is no object, the object that was built at a
place in the order of building, or a list of these. -/
inductive Operand where
  | json (value : Json)
  | octets (bytes : Bytes)
  | address (address : Address)
  | number (field : FieldKind) (value : Int)
  | built (place : Nat)
  | sequence (fixed : Bool) (items : List Operand)

mutual

/-- The argument that an operand stands for, if all the objects that it refers to were built. -/
def Operand.resolve (objects : List Object) : Operand → Option Argument
  | .json value => some (.json value)
  | .octets bytes => some (.octets bytes)
  | .address a => some (.address a)
  | .number field n => some (.number field n)
  | .built place => objects[place]?.map Object.argument
  | .sequence fixed items => (Operand.resolveAll objects items).map (.sequence fixed)

def Operand.resolveAll (objects : List Object) : List Operand → Option (List Argument)
  | [] => some []
  | item :: rest =>
    match Operand.resolve objects item, Operand.resolveAll objects rest with
    | some argument, some arguments => some (argument :: arguments)
    | _, _ => none

end

/-- One call of an operation, or a look at the parts of a packet. -/
inductive Step where
  | makeHeader (command version : Operand)
  | unpackHeader (octets : Bytes)
  | makeV1 (family address metric : Operand)
  | makeV2 (family tag address mask hop metric : Operand)
  | unpackEntry (layout : Version) (record : Bytes) (offset : Int)
  | makePacket (version : Version) (header entries : Operand)
  | split (version : Version) (header entries : Operand)
  | read (octets : Bytes)
  | ofDocument (document : Operand)
  | headerOf (place : Nat)
  | entriesOf (place : Nat)

namespace Step

/-- The packet that was built at a place. -/
def packetAt (objects : List Object) (place : Nat) : Option Packet :=
  match objects[place]? with
  | some (.packet p) => some p
  | _ => none

/-- The objects that a step builds, or its fault. There is no outcome when an operand refers to an
object that was not built. -/
def perform (objects : List Object) (step : Step) : Option (Except Fault (List Object)) :=
  match step with
  | .makeHeader command version => do
    let command ← command.resolve objects
    let version ← version.resolve objects
    some ((Header.make command version).map fun h => [.header h])
  | .unpackHeader octets => some ((Header.unpack octets).map fun h => [.header h])
  | .makeV1 family address metric => do
    let family ← family.resolve objects
    let address ← address.resolve objects
    let metric ← metric.resolve objects
    some ((Entry.makeV1 family address metric).map fun e => [.entry e])
  | .makeV2 family tag address mask hop metric => do
    let family ← family.resolve objects
    let tag ← tag.resolve objects
    let address ← address.resolve objects
    let mask ← mask.resolve objects
    let hop ← hop.resolve objects
    let metric ← metric.resolve objects
    some ((Entry.makeV2 family tag address mask hop metric).map fun e => [.entry e])
  | .unpackEntry layout record offset =>
    some ((Entry.unpack layout record offset).map fun e => [.entry e])
  | .makePacket version header entries => do
    let header ← header.resolve objects
    let entries ← entries.resolve objects
    some ((Packet.make (Format.ofVersion version) header entries).map fun p => [.packet p])
  | .split version header entries => do
    let header ← header.resolve objects
    let entries ← entries.resolve objects
    some ((Packet.split (Format.ofVersion version) header entries).map (·.map .packet))
  | .read octets => some ((Packet.read octets).map fun p => [.packet p])
  | .ofDocument document => do
    let document ← document.resolve objects
    some ((Packet.ofDocument document).map fun p => [.packet p])
  | .headerOf place => (packetAt objects place).map fun p => .ok [.header p.header]
  | .entriesOf place => (packetAt objects place).map fun p => .ok (p.entries.map .entry)

/-- What remains of a step. -/
def results (objects : List Object) (step : Step) : List Object :=
  match step.perform objects with
  | some (.ok built) => built
  | _ => []

end Step

/-- All the objects at hand after a script, in the order in which they were built. -/
def Script.run (objects : List Object) : List Step → List Object
  | [] => objects
  | step :: rest => Script.run (objects ++ step.results objects) rest

/-! ### Operands only bring in what was built -/

namespace Operand

variable {objects : List Object}

theorem mem_of_resolve {operand : Operand} {object : Object}
    (h : operand.resolve objects = some object.argument) : object ∈ objects := by
  cases operand with
  | built place =>
      obtain ⟨other, ho, heq⟩ := Option.map_eq_some_iff.mp h
      have hobject : other = object := by
        cases other <;> cases object <;> cases heq <;> rfl
      rw [← hobject]
      exact List.mem_of_getElem? ho
  | sequence fixed items =>
      obtain ⟨arguments, -, heq⟩ := Option.map_eq_some_iff.mp h
      cases object <;> cases heq
  | _ => cases object <;> cases h

theorem mem_of_resolveAll {items : List Operand} {arguments : List Argument} {object : Object}
    (h : resolveAll objects items = some arguments) (hm : object.argument ∈ arguments) :
    object ∈ objects := by
  induction items generalizing arguments with
  | nil =>
      cases h
      cases hm
  | cons item items ih =>
      unfold resolveAll at h
      split at h
      · next argument rest hfirst hrest =>
          cases h
          rcases List.mem_cons.mp hm with heq | hm
          · rw [← heq] at hfirst
            exact mem_of_resolve hfirst
          · exact ih hrest hm
      · cases h

theorem eq_sequence_of_mem_items {argument : Argument} {items : List Argument} {object : Object}
    (listed : argument.items = .ok items) (hm : object.argument ∈ items) :
    ∃ fixed, argument = .sequence fixed items := by
  cases argument with
  | sequence fixed others =>
      cases listed
      exact ⟨fixed, rfl⟩
  | octets bytes =>
      cases listed
      obtain ⟨octet, -, heq⟩ := List.mem_map.mp hm
      cases object <;> cases heq
  | json value =>
      simp only [Argument.items] at listed
      split at listed
      · next values hvalues =>
          cases listed
          obtain ⟨other, -, heq⟩ := List.mem_map.mp hm
          cases object <;> cases heq
      · cases listed
  | _ => cases listed

theorem mem_of_items {operand : Operand} {argument : Argument} {items : List Argument}
    {object : Object} (h : operand.resolve objects = some argument)
    (listed : argument.items = .ok items) (hm : object.argument ∈ items) : object ∈ objects := by
  obtain ⟨fixed, rfl⟩ := eq_sequence_of_mem_items listed hm
  cases operand with
  | sequence same operands =>
      obtain ⟨arguments, ha, heq⟩ := Option.map_eq_some_iff.mp h
      cases heq
      exact mem_of_resolveAll ha hm
  | built place =>
      obtain ⟨other, -, heq⟩ := Option.map_eq_some_iff.mp h
      cases other <;> cases heq
  | _ => cases h

end Operand

/-! ### What a packet can be made of -/

namespace Packet

theorem ofParts_parts {version : Version} {header : Argument} {items : List Argument} {p : Packet}
    (made : ofParts (Format.ofVersion version) header items = .ok p) :
    (∃ h, header = .header h) ∧ ∀ item ∈ items, ∃ e, item = .entry e := by
  obtain ⟨h, rfl, made⟩ := ofParts_ok_iff.mp made
  obtain ⟨entries, rfl, -⟩ := assemble_ok_iff.mp made
  refine ⟨⟨h, rfl⟩, ?_⟩
  intro item hm
  obtain ⟨e, -, rfl⟩ := List.mem_map.mp hm
  exact ⟨e, rfl⟩

theorem splitItems_parts {version : Version} {header : Argument} {items : List Argument}
    {packets : List Packet}
    (cut : splitItems (Format.ofVersion version) header items = .ok packets) :
    (∃ h, header = .header h) ∧ ∀ item ∈ items, ∃ e, item = .entry e := by
  have hcapacity : 0 < capacity := by decide
  cases items with
  | nil =>
      obtain ⟨p, made, -⟩ := bind_ok_iff.mp cut
      exact ofParts_parts made
  | cons first rest =>
      have hpieces : ∀ piece ∈ chunks capacity (first :: rest),
          (∃ h, header = .header h) ∧ ∀ item ∈ piece, ∃ e, item = .entry e := by
        intro piece hpiece
        obtain ⟨p, -, made⟩ := mapM_ok_forall cut hpiece
        exact ofParts_parts made
      have hmem : ∀ item ∈ first :: rest,
          ∃ piece ∈ chunks capacity (first :: rest), item ∈ piece := by
        intro item hm
        rw [← flatten_chunks hcapacity (first :: rest)] at hm
        exact List.mem_flatten.mp hm
      constructor
      · obtain ⟨piece, hpiece, -⟩ := hmem first (by simp)
        exact (hpieces piece hpiece).1
      · intro item hm
        obtain ⟨piece, hpiece, hitem⟩ := hmem item hm
        exact (hpieces piece hpiece).2 item hitem

end Packet

/-! ### Steps and scripts -/

namespace Step

variable {objects : List Object}

theorem mem_results_iff {step : Step} {object : Object} :
    object ∈ step.results objects ↔
      ∃ built, step.perform objects = some (.ok built) ∧ object ∈ built := by
  unfold results
  split
  · next built hbuilt => simp [hbuilt]
  · next hother =>
      constructor
      · intro hm
        cases hm
      · rintro ⟨built, hbuilt, -⟩
        exact (hother built hbuilt).elim

theorem eq_of_mem_single {α : Type} {outcome : Except Fault α} {wrap : α → Object}
    {built : List Object} {object : Object}
    (h : some (outcome.map fun a => [wrap a]) = some (.ok built)) (hm : object ∈ built) :
    ∃ a, outcome = .ok a ∧ object = wrap a := by
  obtain ⟨a, ha, rfl⟩ := map_ok_iff.mp (Option.some.inj h)
  exact ⟨a, ha, List.mem_singleton.mp hm⟩

theorem mem_of_packetAt {place : Nat} {p : Packet} (h : packetAt objects place = some p) :
    .packet p ∈ objects := by
  unfold packetAt at h
  split at h
  · next other hother =>
      cases h
      exact List.mem_of_getElem? hother
  · cases h

theorem parts_checked (hobjects : ∀ o ∈ objects, Argument.Checked o.argument)
    {header entries : Operand} {head list : Argument} {items : List Argument}
    (hhead : header.resolve objects = some head) (hlist : entries.resolve objects = some list)
    (listed : list.items = .ok items)
    (parts : (∃ h, head = .header h) ∧ ∀ item ∈ items, ∃ e, item = .entry e) :
    Argument.Checked head ∧ ∀ item ∈ items, Argument.Checked item := by
  obtain ⟨⟨h, rfl⟩, hitems⟩ := parts
  constructor
  · have hm : Object.header h ∈ objects := Operand.mem_of_resolve hhead
    exact hobjects _ hm
  · intro item hm
    obtain ⟨e, rfl⟩ := hitems item hm
    have hentry : Object.entry e ∈ objects := Operand.mem_of_items hlist listed hm
    exact hobjects _ hentry

/-- A step builds checked objects from checked objects, whatever operation it calls. -/
theorem results_checked (hobjects : ∀ o ∈ objects, Argument.Checked o.argument) (step : Step) :
    ∀ o ∈ step.results objects, Argument.Checked o.argument := by
  intro o ho
  obtain ⟨built, h, hm⟩ := mem_results_iff.mp ho
  cases step with
  | makeHeader command version =>
      obtain ⟨c, -, h⟩ := Option.bind_eq_some_iff.mp h
      obtain ⟨v, -, h⟩ := Option.bind_eq_some_iff.mp h
      obtain ⟨header, made, rfl⟩ := eq_of_mem_single h hm
      exact .makeHeader made
  | unpackHeader octets =>
      obtain ⟨header, unpacked, rfl⟩ := eq_of_mem_single h hm
      exact .unpackHeader unpacked
  | makeV1 family address metric =>
      obtain ⟨f, -, h⟩ := Option.bind_eq_some_iff.mp h
      obtain ⟨a, -, h⟩ := Option.bind_eq_some_iff.mp h
      obtain ⟨m, -, h⟩ := Option.bind_eq_some_iff.mp h
      obtain ⟨e, made, rfl⟩ := eq_of_mem_single h hm
      exact .makeV1 made
  | makeV2 family tag address mask hop metric =>
      obtain ⟨f, -, h⟩ := Option.bind_eq_some_iff.mp h
      obtain ⟨t, -, h⟩ := Option.bind_eq_some_iff.mp h
      obtain ⟨a, -, h⟩ := Option.bind_eq_some_iff.mp h
      obtain ⟨k, -, h⟩ := Option.bind_eq_some_iff.mp h
      obtain ⟨n, -, h⟩ := Option.bind_eq_some_iff.mp h
      obtain ⟨m, -, h⟩ := Option.bind_eq_some_iff.mp h
      obtain ⟨e, made, rfl⟩ := eq_of_mem_single h hm
      exact .makeV2 made
  | unpackEntry layout record offset =>
      obtain ⟨e, unpacked, rfl⟩ := eq_of_mem_single h hm
      exact .unpackEntry unpacked
  | makePacket version header entries =>
      obtain ⟨head, hhead, h⟩ := Option.bind_eq_some_iff.mp h
      obtain ⟨list, hlist, h⟩ := Option.bind_eq_some_iff.mp h
      obtain ⟨p, made, rfl⟩ := eq_of_mem_single h hm
      obtain ⟨items, listed, hparts⟩ := Packet.make_ok_iff.mp made
      have hchecked := parts_checked hobjects hhead hlist listed (Packet.ofParts_parts hparts)
      exact .makePacket hchecked.1 listed hchecked.2 made
  | split version header entries =>
      obtain ⟨head, hhead, h⟩ := Option.bind_eq_some_iff.mp h
      obtain ⟨list, hlist, h⟩ := Option.bind_eq_some_iff.mp h
      obtain ⟨packets, cut, rfl⟩ := map_ok_iff.mp (Option.some.inj h)
      obtain ⟨p, hp, rfl⟩ := List.mem_map.mp hm
      obtain ⟨items, listed, hparts⟩ := bind_ok_iff.mp cut
      have hchecked := parts_checked hobjects hhead hlist listed (Packet.splitItems_parts hparts)
      exact .split hchecked.1 listed hchecked.2 cut hp
  | read octets =>
      obtain ⟨p, parsed, rfl⟩ := eq_of_mem_single h hm
      exact .read parsed
  | ofDocument document =>
      obtain ⟨d, -, h⟩ := Option.bind_eq_some_iff.mp h
      obtain ⟨p, described, rfl⟩ := eq_of_mem_single h hm
      exact .ofDocument described
  | headerOf place =>
      obtain ⟨p, hp, heq⟩ := Option.map_eq_some_iff.mp h
      cases heq
      rw [List.mem_singleton] at hm
      subst hm
      exact .headerOf (hobjects _ (mem_of_packetAt hp))
  | entriesOf place =>
      obtain ⟨p, hp, heq⟩ := Option.map_eq_some_iff.mp h
      cases heq
      obtain ⟨e, he, rfl⟩ := List.mem_map.mp hm
      exact .entryOf (hobjects _ (mem_of_packetAt hp)) he

end Step

namespace Script

theorem run_checked (script : List Step) {objects : List Object}
    (hobjects : ∀ o ∈ objects, Argument.Checked o.argument) :
    ∀ o ∈ run objects script, Argument.Checked o.argument := by
  induction script generalizing objects with
  | nil => exact hobjects
  | cons step script ih =>
      have hresults := step.results_checked hobjects
      apply ih
      intro o ho
      rcases List.mem_append.mp ho with ho | ho
      · exact hobjects o ho
      · exact hresults o ho

end Script

theorem Object.sound_of_checked {object : Object} (h : Argument.Checked object.argument) :
    object.Sound := by
  have hwellFormed := h.wellFormed
  cases object with
  | header header => exact Header.WellFormed.sound hwellFormed
  | entry e => exact Entry.WellFormed.sound hwellFormed
  | packet p =>
      obtain ⟨version, hp⟩ := hwellFormed
      exact hp.sound

namespace Script

/-- Whatever a script builds is sound: its octets are in order, all that it can be asked for has an
answer, and packets are written. -/
theorem run_sound (script : List Step) : ∀ object ∈ run [] script, object.Sound := by
  intro object hm
  exact Object.sound_of_checked (run_checked script (by simp) object hm)

/-- Steps that succeed, fail and refer to nothing, with a packet made of an entry from values and
one from a record with stray octets. -/
theorem run_sound_mixed_steps :
    let p := Packet.carrying .response .v1 [
      ⟨.v1, [0, 2, 0, 0, 192, 0, 2, 1, 0, 0, 0, 0, 0, 0, 0, 0, 0, 0, 0, 16]⟩,
      ⟨.v1, [0, 0, 0, 0, 255, 7, 0, 1, 0, 0, 0, 0, 0, 0, 0, 0, 4, 3, 2, 1]⟩]
    let script : List Step := [
      .makeHeader (.json (.int 2)) (.json (.bool true)),
      .makeV1 (.json (.int 2)) (.json (.int 3221225985)) (.json (.int 16)),
      .makeV1 (.json (.int 7)) (.json (.int 0)) (.json (.int 1)),
      .unpackEntry .v1 [0, 0, 9, 9, 255, 7, 0, 1, 9, 9, 9, 9, 9, 9, 9, 9, 4, 3, 2, 1] 0,
      .makePacket .v1 (.built 9) (.sequence true []),
      .makePacket .v2 (.built 0) (.sequence true [.built 1]),
      .makePacket .v1 (.built 0) (.sequence true [.built 1, .built 2])]
    .packet p ∈ run [] script ∧ p.Sound := by
  intro p script
  have hrun : run [] script = [
      .header (Header.ofCodes .response .v1),
      .entry ⟨.v1, [0, 2, 0, 0, 192, 0, 2, 1, 0, 0, 0, 0, 0, 0, 0, 0, 0, 0, 0, 16]⟩,
      .entry ⟨.v1, [0, 0, 0, 0, 255, 7, 0, 1, 0, 0, 0, 0, 0, 0, 0, 0, 4, 3, 2, 1]⟩,
      .packet p] := rfl
  have hm : .packet p ∈ run [] script := by
    rw [hrun]
    simp
  exact ⟨hm, run_sound script _ hm⟩

end Script

end RipWire
