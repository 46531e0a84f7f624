import RipWire.Log.Basic
import RipWire.Proofs.Text.Written

/-!
# Where the lines of the log go

A line that its destination takes comes last there, and nothing changes anywhere
else. A file that has no room for it is set aside first: the older files move up
by one, and the line opens a new one.
-/

namespace RipWire.Log

namespace Files

/-! ### What the files hold after an operation -/

section Lookups

variable (files : Files) (name other : Text)

theorem get?_remove :
    (files.remove name).get? other = if other = name then none else files.get? other := by
  rw [get?, remove, List.find?_filter]
  by_cases h : other = name
  · subst h
    rw [if_pos rfl, List.find?_eq_none.mpr]
    · rfl
    · simp
  · rw [if_neg h, get?]
    congr 2
    funext entry
    by_cases he : entry.1 = other
    · simp [he, h]
    · simp [he]

theorem get?_put_eq (file : File) :
    (files.put name file).get? other = if other = name then some file else files.get? other := by
  by_cases h : other = name
  · subst h
    rw [if_pos rfl, get?_put]
  · have hrest := get?_remove files name other
    rw [if_neg h] at hrest ⊢
    rw [← hrest, put, get?, get?, List.find?_cons_of_neg]
    simpa using Ne.symm h

theorem get?_opened :
    (files.opened name).get? other =
      if other = name then some (files.fileAt name) else files.get? other := by
  unfold opened
  cases hfile : files.get? name with
  | some file =>
      by_cases h : other = name
      · subst h
        rw [if_pos rfl, hfile, fileAt, hfile]
        rfl
      · rw [if_neg h]
  | none =>
      simp only [get?_put_eq, fileAt, hfile]
      rfl

theorem fileAt_opened : (files.opened name).fileAt other = files.fileAt other := by
  rw [fileAt, get?_opened]
  by_cases h : other = name
  · rw [if_pos h, h, Option.getD_some]
  · rw [if_neg h, fileAt]

theorem get?_renamed {old new : Text} (hne : old ≠ new) :
    (files.renamed old new).get? other =
      if other = new then (files.get? old).or (files.get? new)
      else if other = old then none else files.get? other := by
  unfold renamed
  cases hfile : files.get? old with
  | some file =>
      simp only [get?_put_eq, get?_remove]
      rfl
  | none =>
      by_cases h : other = new
      · subst h
        rw [if_pos rfl]
        rfl
      · rw [if_neg h]
        by_cases ho : other = old
        · subst ho
          rw [if_pos rfl]
          exact hfile
        · rw [if_neg ho]

end Lookups

/-! ### One line to a file -/

theorem numbered_ne (name : Text) (number : Nat) : numbered name number ≠ name := by
  intro h
  have hlength := congrArg List.length h
  simp [numbered, text] at hlength

theorem numbered_ne_numbered (name : Text) {number other : Nat} (h : number ≠ other) :
    numbered name number ≠ numbered name other := by
  intro he
  exact h (Text.ofNat_inj.mp (List.append_cancel_left he))

/-- Setting a file aside moves every older one up by one. The oldest is lost. -/
theorem get?_rotated (files : Files) (name other : Text) :
    (files.rotated name).get? other =
      if other = name then some File.empty
      else if other = numbered name 1 then files.get? name
      else if other = numbered name 2 then files.get? (numbered name 1)
      else if other = numbered name 3 then
        (files.get? (numbered name 2)).or (files.get? (numbered name 3))
      else files.get? other := by
  have hname (number : Nat) : numbered name number ≠ name := numbered_ne name number
  have h12 : numbered name 1 ≠ numbered name 2 := numbered_ne_numbered name (by decide)
  have h13 : numbered name 1 ≠ numbered name 3 := numbered_ne_numbered name (by decide)
  have h23 : numbered name 2 ≠ numbered name 3 := numbered_ne_numbered name (by decide)
  rw [rotated, get?_put_eq]
  by_cases h : other = name
  · rw [if_pos h, if_pos h]
  rw [if_neg h, if_neg h, get?_renamed _ _ (hname 1).symm, if_neg h]
  by_cases h1 : other = numbered name 1
  · rw [if_pos h1, if_pos h1]
    simp [get?_renamed, h12, h23, (hname _).symm]
  rw [if_neg h1, if_neg h1, get?_renamed _ _ h12, if_neg h1]
  by_cases h2 : other = numbered name 2
  · rw [if_pos h2, if_pos h2]
    simp [get?_renamed, h12, h13, h23]
  rw [if_neg h2, if_neg h2, get?_renamed _ _ h23, if_neg h2]

/-- A line comes to a file: it is the last there, or the file is set aside and the line opens a
new one. Three old files are kept, and no other file is touched. -/
inductive Takes (files : Files) (name line : Text) (after : Files) : Prop where
  | appended (room : (files.fileAt name).isFullFor line = false)
      (own : after.get? name = some ((files.fileAt name).append line))
      (others : ∀ other, other ≠ name → after.get? other = files.get? other)
  | rotated (full : (files.fileAt name).isFullFor line = true)
      (own : after.get? name = some (File.empty.append line))
      (first : after.get? (numbered name 1) = some (files.fileAt name))
      (second : after.get? (numbered name 2) = files.get? (numbered name 1))
      (third : after.get? (numbered name 3) =
        (files.get? (numbered name 2)).or (files.get? (numbered name 3)))
      (others : ∀ other, other ≠ name → (∀ number ∈ [1, 2, 3], other ≠ numbered name number) →
        after.get? other = files.get? other)

theorem fileAt_withRoom (files : Files) (name line : Text) :
    (files.withRoom name line).fileAt name =
      if (files.fileAt name).isFullFor line then File.empty else files.fileAt name := by
  rw [withRoom, fileAt_opened]
  split
  · rw [fileAt, get?_rotated, if_pos rfl, Option.getD_some]
  · exact fileAt_opened files name name

theorem takes_write (files : Files) (name line : Text) :
    files.Takes name line (files.write name line) := by
  rw [write, fileAt_withRoom]
  cases hfull : (files.fileAt name).isFullFor line with
  | false =>
      have hroom : files.withRoom name line = files.opened name := by
        simp [withRoom, fileAt_opened, hfull]
      rw [hroom, if_neg Bool.false_ne_true]
      apply Takes.appended hfull (get?_put _ _ _)
      intro other h
      simp [get?_put_eq, get?_opened, h]
  | true =>
      have hroom : files.withRoom name line = (files.opened name).rotated name := by
        simp [withRoom, fileAt_opened, hfull]
      have h21 : numbered name 2 ≠ numbered name 1 := numbered_ne_numbered name (by decide)
      have h31 : numbered name 3 ≠ numbered name 1 := numbered_ne_numbered name (by decide)
      have h32 : numbered name 3 ≠ numbered name 2 := numbered_ne_numbered name (by decide)
      rw [hroom, if_pos rfl]
      apply Takes.rotated hfull (get?_put _ _ _)
      · simp [get?_put_eq, get?_rotated, get?_opened, numbered_ne]
      · simp [get?_put_eq, get?_rotated, get?_opened, numbered_ne, h21]
      · simp [get?_put_eq, get?_rotated, get?_opened, numbered_ne, h31, h32]
      · intro other h hnumbered
        have h1 := hnumbered 1 (by decide)
        have h2 := hnumbered 2 (by decide)
        have h3 := hnumbered 3 (by decide)
        simp [get?_put_eq, get?_rotated, get?_opened, h, h1, h2, h3]

end Files

/-- Nothing keeps some texts from being written to a destination. -/
def Outside.Takes (outside : Outside) (destination : Destination) (texts : List Text) : Prop :=
  ∀ t ∈ texts, outside.refusal destination t = none

instance (outside : Outside) (destination : Destination) (texts : List Text) :
    Decidable (outside.Takes destination texts) :=
  inferInstanceAs (Decidable (∀ t ∈ texts, outside.refusal destination t = none))

namespace Outlets

/-- The same lines everywhere. A log file may have been created, without a line. -/
structure SameLines (outlets after : Outlets) : Prop where
  stdout : after.stdout = outlets.stdout
  stderr : after.stderr = outlets.stderr
  files : ∀ name, after.files.fileAt name = outlets.files.fileAt name

theorem SameLines.refl (outlets : Outlets) : outlets.SameLines outlets :=
  ⟨rfl, rfl, fun _ => rfl⟩

/-- A line comes last at a destination, and nothing changes anywhere else. -/
inductive Delivered (outlets : Outlets) (line : Text) : Destination → Outlets → Prop where
  | stdout : Delivered outlets line .stdout { outlets with stdout := line :: outlets.stdout }
  | stderr : Delivered outlets line .stderr { outlets with stderr := line :: outlets.stderr }
  | file {name : Text} {files : Files} (taken : outlets.files.Takes name line files) :
      Delivered outlets line (.file name) { outlets with files }

/-- Lines come to a destination one after the other, each of them once. -/
inductive DeliveredInTurn (destination : Destination) : Outlets → List Text → Outlets → Prop where
  | nil (outlets : Outlets) : DeliveredInTurn destination outlets [] outlets
  | cons {outlets next after : Outlets} {line : Text} {lines : List Text}
      (first : outlets.Delivered line destination next)
      (rest : DeliveredInTurn destination next lines after) :
      DeliveredInTurn destination outlets (line :: lines) after

theorem delivered_send {outlets : Outlets} {destination : Destination} {line : Text}
    (h : outlets.outside.refusal destination line = none) :
    outlets.Delivered line destination (outlets.send destination line) := by
  rw [send.eq_def, h]
  cases destination with
  | stdout => exact .stdout
  | stderr => exact .stderr
  | file name => exact .file (Files.takes_write _ _ _)

/-! ### What is found outside stays -/

@[simp] theorem outside_opening (outlets : Outlets) (destination : Destination) :
    (outlets.opening destination).outside = outlets.outside := by
  cases destination <;> rfl

@[simp] theorem outside_send (outlets : Outlets) (destination : Destination) (line : Text) :
    (outlets.send destination line).outside = outlets.outside := by
  unfold send
  split <;> rfl

end Outlets

section Lines

variable (stamp : Stamp) (handler : Handler) (level : Level) (source : Source)

theorem outside_writeLines (pieces : List Text) (outlets : Outlets) :
    (writeLines stamp handler level source pieces outlets).outside = outlets.outside := by
  induction pieces generalizing outlets with
  | nil => rfl
  | cons piece rest ih => rw [writeLines, ih, Outlets.outside_send]

theorem delivered_writeLines {pieces : List Text} {outlets : Outlets}
    (h : outlets.outside.Takes handler.destination
      (pieces.map (handler.line stamp level source))) :
    Outlets.DeliveredInTurn handler.destination outlets
      (pieces.map (handler.line stamp level source))
      (writeLines stamp handler level source pieces outlets) := by
  induction pieces generalizing outlets with
  | nil => exact .nil outlets
  | cons piece rest ih =>
      obtain ⟨hfirst, hrest⟩ := List.forall_mem_cons.mp h
      apply Outlets.DeliveredInTurn.cons (Outlets.delivered_send hfirst)
      apply ih
      rw [Outlets.outside_send]
      exact hrest

end Lines

theorem outside_emit (stamp : Stamp) (log : Log) (note : Note) (outlets : Outlets) :
    (emit stamp log note outlets).1.outside = outlets.outside := by
  unfold emit
  split
  · rfl
  · split
    · rfl
    · split
      · rfl
      · exact outside_writeLines _ _ _ _ _ _

end RipWire.Log
