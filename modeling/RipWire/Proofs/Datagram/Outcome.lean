import RipWire.Datagram.Wire
import RipWire.Proofs.Datagram.Document
import RipWire.Proofs.Datagram.Refusal

/-!
# The outcomes of reading a datagram

Reading ends with a packet that has a document, or with a codec error: there is
no third outcome. Whatever the log is told about reading and about writing can be
spelled.
-/

namespace RipWire

/-- A message that has a text to be written as. -/
def Log.Message.Spellable (message : Log.Message) : Prop :=
  ∃ content, message.spell = .ok content

theorem Log.filled_append (places : List (Text × Argument)) {front : Text}
    (hopen : 123 ∉ front) (hclose : 125 ∉ front) (rest : Text) :
    filled places (front ++ rest) = (filled places rest).map (front ++ ·) := by
  induction front with
  | nil =>
      rw [List.nil_append]
      cases filled places rest <;> rfl
  | cons c front ih =>
      obtain ⟨ho, hopen⟩ := not_or.mp (mt List.mem_cons.mpr hopen)
      obtain ⟨hc, hclose⟩ := not_or.mp (mt List.mem_cons.mpr hclose)
      have hstep : filled places (c :: (front ++ rest)) =
          (filled places (front ++ rest)).map (c :: ·) := by
        rw [filled.eq_5, if_neg (Ne.symm ho), if_neg (Ne.symm hc)]
        all_goals grind
      rw [List.cons_append, hstep, ih hopen hclose]
      cases filled places rest <;> rfl

namespace Packet

theorem WellFormed.toJson_ok {version : Version} {p : Packet} (h : p.WellFormed version) :
    ∃ json, p.toJson = .ok json := by
  obtain ⟨json, hjson, -⟩ := h.document
  exact ⟨json, hjson⟩

theorem read_error {octets : Bytes} {fault : Fault} (h : read octets = .error fault) :
    ∃ error, fault = .codec error := by
  obtain ⟨error, rfl, -⟩ := exists_refusal h
  exact ⟨error, rfl⟩

/-! ### What the log is told -/

theorem summary_spellable {verb : Text} (hopen : 123 ∉ verb) (hclose : 125 ∉ verb)
    (command : Command) (version : Version) (count : Nat) :
    (summary verb command version count).Spellable := by
  have hrest : (Log.Message.template (text " {command} {version} with {count} entries")
      (places command version count)).Spellable := by
    cases command <;> cases version <;> exact ⟨_, rfl⟩
  obtain ⟨content, hcontent⟩ := hrest
  refine ⟨verb ++ content, ?_⟩
  rw [Log.Message.spell] at hcontent
  rw [summary, Log.Message.spell, Log.filled_append _ hopen hclose, hcontent]
  rfl

theorem readNotes_spellable (octets : Bytes) :
    ∀ note ∈ readNotes octets, note.message.Spellable := by
  unfold readNotes
  refine List.forall_mem_cons.mpr ⟨⟨_, rfl⟩, ?_⟩
  cases hr : read octets with
  | ok p =>
      obtain ⟨version, hp⟩ := read_wellFormed hr
      obtain ⟨command, hc⟩ := hp.command_ok
      simp only [decoded, hc, hp.version_ok, List.mem_singleton]
      rintro note rfl
      exact summary_spellable (by decide) (by decide) command version p.entries.length
  | error fault =>
      obtain ⟨error, rfl⟩ := read_error hr
      simp only [refused, List.mem_singleton]
      rintro note rfl
      exact ⟨_, rfl⟩

theorem writeNotes_spellable (packet : Argument) :
    ∀ note ∈ writeNotes packet, note.message.Spellable := by
  unfold writeNotes
  split
  · next p octets _ =>
      cases hc : p.command with
      | error fault => simp
      | ok command =>
          cases hv : p.version with
          | error fault => simp
          | ok version =>
              refine List.forall_mem_cons.mpr ⟨?_, List.forall_mem_singleton.mpr ⟨_, rfl⟩⟩
              exact summary_spellable (by decide) (by decide) command version p.entries.length
  · simp

end Packet

end RipWire
