import RipWire.Fault.Message
import RipWire.Proofs.Datagram.Splitting
import RipWire.Proofs.Text.Written

/-!
# Items that do not belong into a table

A table is refused for its first item that is no entry of the format, wherever it is.
The complaint counts the items of one packet. It therefore names the place of the
item in the table only when the item would go into the first packet.
-/

namespace RipWire

open Checks

/-- An entry in the layout of a format. -/
def Argument.Belongs (format : Format) (item : Argument) : Prop :=
  ∃ e : Entry, item = .entry e ∧ e.version = format.layout

/-- The fault of an item that does not belong to the place where it is: its name and its words. -/
structure Misplaced (format : Format) (place : Nat) (item : Argument) (fault : Fault) : Prop where
  otherVersion : ∀ e : Entry, item = .entry e →
    fault.name = text "VersionMismatch" ∧
      fault.message = text "entry " ++ Text.ofNat place ++ text " is a " ++ e.version.name ++
        text " entry, the packet is " ++ Version.nameOf format.version
  noEntry : (∀ e : Entry, item ≠ .entry e) →
    fault.name = text "TypeError" ∧
      fault.message = text "entry " ++ Text.ofNat place ++ text " must be an " ++
        Entry.kind ⟨format.layout, []⟩ ++ text ", not " ++ item.kind

theorem Misplaced.place_eq {format : Format} {place other : Nat} {item : Argument} {fault : Fault}
    (h : Misplaced format place item fault) (hother : Misplaced format other item fault) :
    place = other := by
  by_cases hitem : ∃ e : Entry, item = .entry e
  · obtain ⟨e, he⟩ := hitem
    have hwords := (h.otherVersion e he).2.symm.trans (hother.otherVersion e he).2
    simp only [List.append_assoc, List.append_cancel_left_eq] at hwords
    exact Text.ofNat_inj.mp (List.append_cancel_right hwords)
  · have hnone : ∀ e : Entry, item ≠ .entry e := fun e he => hitem ⟨e, he⟩
    have hwords := (h.noEntry hnone).2.symm.trans (hother.noEntry hnone).2
    simp only [List.append_assoc, List.append_cancel_left_eq] at hwords
    exact Text.ofNat_inj.mp (List.append_cancel_right hwords)

namespace Entry

variable {format : Format}

theorem exists_ofItem {item : Argument} (h : item.Belongs format) (index : Nat) :
    ∃ e, ofItem format index item = .ok e := by
  obtain ⟨e, rfl, hv⟩ := h
  exact ⟨e, ofItem_ok_iff.mpr ⟨rfl, hv⟩⟩

theorem ofItem_misplaced {item : Argument} (h : ¬ item.Belongs format) (index : Nat) :
    ∃ fault, ofItem format index item = .error fault ∧ Misplaced format index item fault := by
  cases item with
  | entry e =>
      have hv : e.version ≠ format.layout := fun hv => h ⟨e, rfl, hv⟩
      refine ⟨_, if_neg hv, ?_, ?_⟩
      · intro other heq
        cases heq
        exact ⟨rfl, rfl⟩
      · intro hnone
        exact (hnone e rfl).elim
  | _ => exact ⟨_, rfl, nofun, fun _ => ⟨rfl, rfl⟩⟩

theorem exists_ofItems {items : List Argument} (h : ∀ item ∈ items, item.Belongs format)
    (index : Nat) : ∃ entries, ofItems format index items = .ok entries := by
  induction items generalizing index with
  | nil => exact ⟨[], rfl⟩
  | cons item items ih =>
      obtain ⟨hitem, hitems⟩ := List.forall_mem_cons.mp h
      obtain ⟨e, he⟩ := exists_ofItem hitem index
      obtain ⟨entries, hentries⟩ := ih hitems (index + 1)
      exact ⟨e :: entries, bind_ok_iff.mpr ⟨e, he, bind_ok_iff.mpr ⟨entries, hentries, rfl⟩⟩⟩

/-- Items are counted from the index on, and the first that does not belong ends the counting. -/
theorem ofItems_error_behind {before : List Argument} {item : Argument} {fault : Fault}
    (behind : List Argument) (hbefore : ∀ other ∈ before, other.Belongs format) {index : Nat}
    (failed : ofItem format (index + before.length) item = .error fault) :
    ofItems format index (before ++ item :: behind) = .error fault := by
  induction before generalizing index with
  | nil =>
      rw [List.length_nil, Nat.add_zero] at failed
      rw [List.nil_append, ofItems, failed]
      rfl
  | cons other before ih =>
      obtain ⟨hother, hmore⟩ := List.forall_mem_cons.mp hbefore
      obtain ⟨e, he⟩ := exists_ofItem hother index
      have hcount : index + (other :: before).length = index + 1 + before.length := by
        rw [List.length_cons]
        omega
      rw [hcount] at failed
      exact bind_error_iff.mpr (.inr ⟨e, he, bind_error_iff.mpr (.inl (ih hmore failed))⟩)

end Entry

namespace Packet

theorem assemble_eq_map {format : Format} {header : Header} {version : Version}
    {items : List Argument} (hv : header.version = .ok version)
    (hcode : (version.code : Int) = format.version) (hl : items.length ≤ capacity) :
    assemble format header items =
      (Entry.ofItems format 0 items).map fun entries => ⟨some format, header, entries⟩ := by
  have hsame : ¬ (version.code : Int) ≠ format.version := by simpa using hcode
  rw [assemble, if_neg (by omega), hv]
  simp only [bind, Except.bind, if_neg hsame]
  cases Entry.ofItems format 0 items <;> rfl

theorem runs_around {α : Type} (before : List α) (item : α) (behind : List α) :
    runs (before ++ item :: behind) = chunks capacity (before ++ item :: behind) := by
  cases before <;> rfl

section Misplaced

variable {format : Format} {header : Header} {version : Version}
  (hv : header.version = .ok version) (hcode : (version.code : Int) = format.version)

include hv hcode

/-- The packets in front of the one that the item would go into are made, and that one fails. -/
theorem splitItems_misplaced {before : List Argument} {item : Argument} (behind : List Argument)
    (hbefore : ∀ other ∈ before, other.Belongs format) (hitem : ¬ item.Belongs format) :
    ∃ fault, splitItems format (.header header) (before ++ item :: behind) = .error fault ∧
      Misplaced format (before.length % 25) item fault := by
  have hcapacity : 0 < capacity := by decide
  obtain ⟨full, part, rest, others, hparts, hfull, hpart, hcut⟩ :=
    exists_chunks_around hcapacity before item behind
  obtain ⟨fault, hfault, hmisplaced⟩ := Entry.ofItem_misplaced hitem part.length
  have hlength : (part ++ item :: rest).length ≤ capacity := by
    refine (length_piece hcapacity (before ++ item :: behind) _ ?_).2
    rw [hcut]
    exact List.mem_append_right _ List.mem_cons_self
  have hbelongs : ∀ piece ∈ full, ∀ other ∈ piece, other.Belongs format := by
    intro piece hpiece other hother
    apply hbefore
    rw [hparts]
    exact List.mem_append_left _ (List.mem_flatten_of_mem hpiece hother)
  have hrest : ∀ other ∈ part, other.Belongs format := by
    intro other hother
    apply hbefore
    rw [hparts]
    exact List.mem_append_right _ hother
  have hpassed : ∀ piece ∈ full, ∃ p, ofParts format (.header header) piece = .ok p := by
    intro piece hpiece
    obtain ⟨entries, hentries⟩ := Entry.exists_ofItems (hbelongs piece hpiece) 0
    have hfits := hfull piece hpiece
    rw [ofParts, assemble_eq_map hv hcode (by omega), hentries]
    exact ⟨_, rfl⟩
  have hfailed : ofParts format (.header header) (part ++ item :: rest) = .error fault := by
    rw [ofParts, assemble_eq_map hv hcode hlength,
      Entry.ofItems_error_behind rest hrest (by rw [Nat.zero_add]; exact hfault)]
    rfl
  have hplace : part.length = before.length % 25 := hpart
  rw [hplace] at hmisplaced
  refine ⟨fault, ?_, hmisplaced⟩
  rw [splitItems_eq, runs_around, hcut]
  exact mapM_error_behind others hpassed hfailed

end Misplaced

/-- A table with an item that does not belong into it is refused for the first such item. The place
that is named is the one in the packet, which is the place in the table for the items of the first
packet and for no others. -/
theorem split_misplaced {format : Format} {header : Header} {version : Version}
    (hv : header.version = .ok version) (hcode : (version.code : Int) = format.version)
    {entries : Argument} {before behind : List Argument} {item : Argument}
    (listed : entries.items = .ok (before ++ item :: behind))
    (hbefore : ∀ other ∈ before, other.Belongs format) (hitem : ¬ item.Belongs format) :
    ∃ fault, split format (.header header) entries = .error fault ∧
      Misplaced format (before.length % 25) item fault ∧
      (Misplaced format before.length item fault ↔ before.length < 25) := by
  obtain ⟨fault, hfault, hmisplaced⟩ := splitItems_misplaced hv hcode behind hbefore hitem
  refine ⟨fault, ?_, hmisplaced, ?_⟩
  · rw [split, listed]
    exact hfault
  · constructor
    · intro hplace
      have heq := hplace.place_eq hmisplaced
      omega
    · intro hlt
      rw [Nat.mod_eq_of_lt hlt] at hmisplaced
      exact hmisplaced

/-- The twenty-eighth item of a table of the first version is an entry of the second, and the
complaint is about entry 2. -/
theorem split_misplaced_in_second_packet :
    let format := Format.ofVersion .v1
    let header := Header.ofCodes .response .v1
    let e : Entry := ⟨.v1, [0, 2, 0, 0, 10, 0, 0, 0, 0, 0, 0, 0, 0, 0, 0, 0, 0, 0, 0, 1]⟩
    let other : Entry :=
      ⟨.v2, [0, 2, 0, 7, 10, 0, 0, 0, 255, 0, 0, 0, 192, 0, 2, 254, 0, 0, 0, 1]⟩
    let before := List.replicate 27 (Argument.entry e)
    header.version = .ok .v1 ∧ (Version.v1.code : Int) = format.version ∧
      (∀ item ∈ before, item.Belongs format) ∧ ¬ (Argument.entry other).Belongs format ∧
      ∃ fault, split format (.header header)
          (.sequence false (before ++ .entry other :: [.json .null])) = .error fault ∧
        fault.message = text "entry 2 is a v2 entry, the packet is v1" ∧
        ¬ Misplaced format 27 (.entry other) fault := by
  intro format header e other before
  have hbefore : ∀ item ∈ before, item.Belongs format := by
    intro item hm
    rw [List.eq_of_mem_replicate hm]
    exact ⟨e, rfl, rfl⟩
  have hother : ¬ (Argument.entry other).Belongs format := by
    intro h
    obtain ⟨same, heq, hv⟩ := h
    cases heq
    cases hv
  have hv : header.version = .ok .v1 := rfl
  have hcode : (Version.v1.code : Int) = format.version := rfl
  have listed : (Argument.sequence false (before ++ .entry other :: [.json .null])).items =
      .ok (before ++ .entry other :: [.json .null]) := rfl
  obtain ⟨fault, hfault, hmisplaced, hplace⟩ := split_misplaced hv hcode listed hbefore hother
  refine ⟨rfl, rfl, hbefore, hother, fault, hfault,
    (hmisplaced.otherVersion other rfl).2.trans (by decide), ?_⟩
  intro h
  exact absurd (hplace.mp h) (by decide)

/-- The twenty-sixth item would go into the second packet, and the place that is named is the one of
the first item of the table. -/
theorem not_split_misplaced_at_its_place :
    ¬ ∀ (format : Format) (header : Header) (version : Version) (entries : Argument)
      (before behind : List Argument) (item : Argument), header.version = .ok version →
      (version.code : Int) = format.version → entries.items = .ok (before ++ item :: behind) →
      (∀ other ∈ before, other.Belongs format) → ¬ item.Belongs format →
      ∃ fault, split format (.header header) entries = .error fault ∧
        Misplaced format before.length item fault := by
  intro h
  let e : Entry := ⟨.v1, [0, 2, 0, 0, 10, 0, 0, 0, 0, 0, 0, 0, 0, 0, 0, 0, 0, 0, 0, 1]⟩
  let before := List.replicate 25 (Argument.entry e)
  let item := Argument.json (.string (text "x"))
  have hbefore : ∀ other ∈ before, other.Belongs (Format.ofVersion .v1) := by
    intro other hm
    rw [List.eq_of_mem_replicate hm]
    exact ⟨e, rfl, rfl⟩
  have hsplit : split (Format.ofVersion .v1) (.header (Header.ofCodes .response .v1))
      (.sequence false (before ++ [item])) = .error (.notEntry 0 .v1 (text "str")) := rfl
  have hfirst : Misplaced (Format.ofVersion .v1) 0 item (.notEntry 0 .v1 (text "str")) :=
    ⟨nofun, fun _ => ⟨rfl, rfl⟩⟩
  have hitem : ¬ item.Belongs (Format.ofVersion .v1) := by
    intro hbelongs
    obtain ⟨other, heq, -⟩ := hbelongs
    exact Argument.noConfusion heq
  obtain ⟨fault, hfault, hmisplaced⟩ := h (Format.ofVersion .v1) (Header.ofCodes .response .v1) .v1
    (.sequence false (before ++ [item])) before [] item rfl rfl rfl hbefore hitem
  rw [hsplit] at hfault
  cases hfault
  exact absurd (hmisplaced.place_eq hfirst) (by decide)

end Packet

end RipWire
