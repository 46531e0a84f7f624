import RipWire.Proofs.Datagram.RoundTrip
import RipWire.Proofs.Octets.Pieces

/-!
# Splitting a table

A table of any length is split into packets that carry its entries in their
order, each of them once, in as few packets as they fit into. What is received
from the datagrams of these packets is the table again.
-/

namespace RipWire

open Checks

namespace Packet

/-- The runs of items that the packets of a split carry: a table without items has one, an empty
one. -/
def runs {α : Type} : List α → List (List α)
  | [] => [[]]
  | item :: rest => chunks capacity (item :: rest)

section Runs

variable {α : Type} (items : List α)

theorem flatten_runs : (runs items).flatten = items := by
  cases items with
  | nil => rfl
  | cons item rest => exact flatten_chunks (by decide) (item :: rest)

theorem length_runs : (runs items).length = max 1 ((items.length + 24) / 25) := by
  cases items with
  | nil => simp [runs]
  | cons item rest =>
      rw [runs, length_chunks_eq (by decide), capacity, List.length_cons]
      omega

theorem length_run_le : ∀ run ∈ runs items, run.length ≤ capacity := by
  cases items with
  | nil => simp [runs]
  | cons item rest => exact fun run hm => (length_piece (by decide) _ run hm).2

theorem length_dropLast_run : ∀ run ∈ (runs items).dropLast, run.length = capacity := by
  cases items with
  | nil => simp [runs]
  | cons item rest => exact length_dropLast_piece (by decide) (item :: rest)

theorem eq_nil_of_empty_run (hm : [] ∈ runs items) : items = [] := by
  cases items with
  | nil => rfl
  | cons item rest => exact absurd (length_piece (by decide) _ [] hm).1 (Nat.lt_irrefl 0)

theorem runs_map {β : Type} (f : α → β) : runs (items.map f) = (runs items).map (List.map f) := by
  cases items with
  | nil => rfl
  | cons item rest => exact chunks_map (by decide) f (item :: rest)

theorem runs_of_le {items : List α} (hl : items.length ≤ capacity) : runs items = [items] := by
  cases items with
  | nil => rfl
  | cons item rest => exact chunks_of_le (by simp) hl

end Runs

theorem splitItems_eq (format : Format) (header : Argument) (items : List Argument) :
    splitItems format header items = (runs items).mapM (ofParts format header) := by
  cases items with
  | nil => rw [splitItems, runs, List.mapM_cons, List.mapM_nil]; rfl
  | cons item rest => rfl

/-- The packets under one header, one for each run of entries. -/
def sharing (version : Version) (header : Header) (entries : List Entry) : List Packet :=
  (runs entries).map fun run => ⟨some (Format.ofVersion version), header, run⟩

/-- How packets carry a table: as few of them as possible, one at least, under one header, full up
to the last, which is empty only when the table is. Their entries are the table. -/
structure Carry (version : Version) (header : Header) (entries : List Entry)
    (packets : List Packet) : Prop where
  count : packets.length = max 1 ((entries.length + 24) / 25)
  alike : ∀ p ∈ packets, p.format = some (Format.ofVersion version) ∧ p.header = header
  full : ∀ p ∈ packets.dropLast, p.entries.length = 25
  last : ∀ p ∈ packets.getLast?, p.entries.length ≤ 25 ∧ (p.entries = [] → entries = [])
  whole : packets.flatMap Packet.entries = entries

theorem carry_sharing (version : Version) (header : Header) (entries : List Entry) :
    Carry version header entries (sharing version header entries) := by
  constructor
  case count => rw [sharing, List.length_map, length_runs]
  case alike =>
    intro p hm
    obtain ⟨run, -, rfl⟩ := List.mem_map.mp hm
    exact ⟨rfl, rfl⟩
  case full =>
    intro p hm
    rw [sharing, ← List.map_dropLast] at hm
    obtain ⟨run, hr, rfl⟩ := List.mem_map.mp hm
    exact length_dropLast_run entries run hr
  case last =>
    intro p hm
    obtain ⟨run, hr, rfl⟩ := List.mem_map.mp (List.mem_of_getLast? hm)
    refine ⟨length_run_le entries run hr, ?_⟩
    rintro rfl
    exact eq_nil_of_empty_run entries hr
  case whole =>
    have hentries : (runs entries).flatMap (fun run => run) = entries := by
      rw [List.flatMap_id', flatten_runs]
    rwa [sharing, List.flatMap_map]

theorem split_sharing {version : Version} {header : Header} {entries : List Entry}
    (hv : header.version = .ok version) (hl : ∀ e ∈ entries, e.version = version)
    (fixed : Bool) :
    split (Format.ofVersion version) (.header header) (.sequence fixed (entries.map .entry)) =
      .ok (sharing version header entries) := by
  have hpackets : splitItems (Format.ofVersion version) (.header header) (entries.map .entry) =
      .ok (sharing version header entries) := by
    rw [splitItems_eq, runs_map, mapM_ok_iff, sharing, List.forall₂_map_left_iff,
      List.forall₂_map_right_iff, List.forall₂_same]
    intro run hm
    refine ofParts_ok_iff.mpr ⟨header, rfl, assemble_ok_iff.mpr ⟨run, rfl, ?_, hv, ?_, rfl⟩⟩
    · exact length_run_le entries run hm
    · intro e he
      rw [← flatten_runs entries] at hl
      exact hl e (List.mem_flatten_of_mem hm he)
  exact hpackets

theorem sharing_wellFormed {version : Version} {header : Header} {entries : List Entry}
    (hh : header.WellFormed) (hv : header.version = .ok version)
    (hl : ∀ e ∈ entries, e.version = version) (he : ∀ e ∈ entries, e.WellFormed) :
    ∀ p ∈ sharing version header entries, p.WellFormed version := by
  intro p hm
  obtain ⟨run, hr, rfl⟩ := List.mem_map.mp hm
  obtain ⟨command, other, rfl⟩ := hh
  rw [Header.version_ofCodes] at hv
  cases hv
  have hsub : ∀ e ∈ run, e ∈ entries := by
    intro e hrun
    rw [← flatten_runs entries]
    exact List.mem_flatten_of_mem hr hrun
  exact ⟨⟨command, rfl⟩, length_run_le entries run hr, fun e hrun => hl e (hsub e hrun),
    fun e hrun => he e (hsub e hrun)⟩

theorem exists_datagrams {version : Version} {packets : List Packet}
    (hp : ∀ p ∈ packets, p.WellFormed version) :
    ∃ datagrams, packets.mapM (fun p => write (.packet p)) = .ok datagrams ∧
      (∀ octets ∈ datagrams, octets.length ≤ 504) ∧ datagrams.mapM read = .ok packets := by
  refine ⟨packets.map octets, ?_, ?_, ?_⟩
  · rw [mapM_ok_iff, List.forall₂_map_right_iff, List.forall₂_same]
    exact fun p hm => write_of_wellFormed (hp p hm)
  · intro octets hm
    obtain ⟨p, hpm, rfl⟩ := List.mem_map.mp hm
    have hfits : p.entries.length ≤ 25 := (hp p hpm).fits
    rw [(hp p hpm).length_octets, Packet.length, Header.size, Entry.size]
    omega
  · rw [mapM_ok_iff, List.forall₂_map_left_iff, List.forall₂_same]
    exact fun p hm => read_octets (hp p hm)

/-- What fits into one packet is split as that packet is made, with the same fault if there is
one. -/
theorem split_of_le (format : Format) (header : Argument) {entries : Argument}
    {items : List Argument} (listed : entries.items = .ok items) (hl : items.length ≤ capacity) :
    split format header entries = (make format header entries).map fun p => [p] := by
  have hmake : make format header entries = ofParts format header items := by
    cases header with
    | header h => rw [make, listed]; rfl
    | _ => rfl
  have hsplit : split format header entries = splitItems format header items := by
    rw [split, listed]
    rfl
  rw [hsplit, hmake, splitItems_eq, runs_of_le hl, List.mapM_cons, List.mapM_nil]
  cases ofParts format header items <;> rfl

/-- A table of any length is carried by its packets, and received again from their datagrams. One
that fits into a packet gives that packet or its fault, whatever the header and the items are. -/
theorem split_carries :
    (∀ (version : Version) (header : Header) (entries : List Entry) (fixed : Bool),
      header.version = .ok version → (∀ e ∈ entries, e.version = version) →
        ∃ packets, split (Format.ofVersion version) (.header header)
            (.sequence fixed (entries.map .entry)) = .ok packets ∧
          Carry version header entries packets ∧
          (header.WellFormed → (∀ e ∈ entries, e.WellFormed) →
            ∃ datagrams, packets.mapM (fun p => write (.packet p)) = .ok datagrams ∧
              (∀ octets ∈ datagrams, octets.length ≤ 504) ∧
              datagrams.mapM read = .ok packets)) ∧
      ∀ (format : Format) (header entries : Argument) (items : List Argument),
        entries.items = .ok items → items.length ≤ 25 →
          split format header entries = (make format header entries).map fun p => [p] := by
  constructor
  · intro version header entries fixed hv hl
    refine ⟨_, split_sharing hv hl fixed, carry_sharing version header entries, ?_⟩
    intro hh he
    exact exists_datagrams (sharing_wellFormed hh hv hl he)
  · intro format header entries items listed hl
    exact split_of_le format header listed hl

/-- Fifty-one routes make two full packets and one with a single entry. -/
theorem split_carries_of_fifty_one :
    let header := Header.ofCodes .response .v2
    let e : Entry := ⟨.v2, [0, 2, 255, 255, 10, 0, 0, 0, 255, 0, 0, 0, 192, 0, 2, 254, 0, 0, 0, 16]⟩
    header.WellFormed ∧ e.WellFormed ∧
      ∃ packets, split (Format.ofVersion .v2) (.header header)
          (.sequence true ((List.replicate 51 e).map .entry)) = .ok packets ∧
        packets.length = 3 ∧ packets.flatMap Packet.entries = List.replicate 51 e ∧
        ∃ datagrams, packets.mapM (fun p => write (.packet p)) = .ok datagrams ∧
          datagrams.mapM read = .ok packets := by
  intro header e
  have hh : header.WellFormed := ⟨.response, .v2, rfl⟩
  have he : e.WellFormed := ⟨rfl, ⟨.ip, rfl⟩, rfl⟩
  have hall {P : Entry → Prop} (h : P e) : ∀ other ∈ List.replicate 51 e, P other :=
    fun other hm => (List.eq_of_mem_replicate hm) ▸ h
  obtain ⟨packets, hsplit, hcarry, hsent⟩ :=
    split_carries.1 .v2 header (List.replicate 51 e) true rfl (hall rfl)
  obtain ⟨datagrams, hwrite, -, hread⟩ := hsent hh (hall he)
  have hcount : packets.length = 3 := by
    rw [hcarry.count, List.length_replicate]
    decide
  exact ⟨hh, he, packets, hsplit, hcount, hcarry.whole, datagrams, hwrite, hread⟩

end Packet

end RipWire
