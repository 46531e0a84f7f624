import RipWire.Proofs.Json.Leaves

/-!
# Pieces of a document

What a reader takes from a text is a piece at its start. The reader takes the same
from that piece whatever stands behind it, unless a number goes on there, and with
all fuel that is not less than the piece is long. A piece has no white space at its
ends.
-/

namespace RipWire.Json

/-! ### Values -/

/-- A piece of text that a reader takes for a value, whatever stands behind it. -/
structure Spelling (reader : Nat → Text → Step Json) (piece : Text) (v : Json) : Prop where
  starts : ∃ c rest, piece = c :: rest ∧ Ink c ∧ c ≠ 93
  last : ∀ c ∈ piece.getLast?, Ink c
  shown : ∀ c ∈ piece, isSpace c = true ∨ 32 ≤ c
  reads : ∀ fuel rest, piece.length ≤ fuel → Ends rest →
    reader fuel (piece ++ rest) = .ok (v, rest)

theorem shown_of_ink {c : CodePoint} (h : Ink c) : isSpace c = true ∨ 32 ≤ c :=
  .inr (Nat.le_of_lt h.1)

theorem shown_of_gap {gap : Text} (hg : Gap gap) : ∀ c ∈ gap, isSpace c = true ∨ 32 ≤ c :=
  fun c hm => .inl (hg c hm)

theorem spelling_of_step {piece : Text} {v : Json}
    (hstart : ∃ c rest, piece = c :: rest ∧ Ink c ∧ c ≠ 93) (hlast : ∀ c ∈ piece.getLast?, Ink c)
    (hshown : ∀ c ∈ piece, isSpace c = true ∨ 32 ≤ c)
    (hreads : ∀ fuel rest, Ends rest → value (fuel + 1) (piece ++ rest) = .ok (v, rest)) :
    Spelling value piece v where
  starts := hstart
  last := hlast
  shown := hshown
  reads := by
    intro fuel rest hf hr
    obtain ⟨c, more, rfl, -⟩ := hstart
    cases fuel with
    | zero => cases hf
    | succ fuel => exact hreads fuel rest hr

theorem spelling_number {t rest : Text} {v : Json} (h : number t = .ok (v, rest)) :
    ∃ piece, t = piece ++ rest ∧ Spelling value piece v := by
  by_cases hsign : t.head? = some 45
  · obtain ⟨unsigned, rfl⟩ := List.head?_eq_some_iff.mp hsign
    rw [number_negative_sign] at h
    obtain ⟨piece, rfl, hpart, ⟨c, more, rfl, hc⟩, hreads⟩ := exists_unsignedNumber h
    refine ⟨45 :: c :: more, rfl, spelling_of_step ⟨45, _, rfl, by decide⟩ ?_ ?_ ?_⟩
    · exact fun d hd => ink_of_digit (hpart.last d (by simpa using hd))
    · exact List.forall_mem_cons.mpr ⟨by decide, fun d hd => shown_of_ink (hpart.ink d hd)⟩
    · intro fuel behind hb
      rw [List.cons_append, List.cons_append, value_number fuel (.inr rfl) (word?_sign hc _),
        number_negative_sign]
      exact hreads _ behind hb
  · have hno : ∀ c ∈ t.head?, c ≠ 45 := by
      rintro c hc rfl
      exact hsign hc
    rw [number_no_sign hno] at h
    obtain ⟨piece, rfl, hpart, ⟨c, more, rfl, hc⟩, hreads⟩ := exists_unsignedNumber h
    have hne : c ≠ 45 ∧ c ≠ 93 := by
      refine ⟨?_, ?_⟩ <;>
        · rintro rfl
          cases hc
    refine ⟨c :: more, rfl, spelling_of_step ⟨c, _, rfl, ink_of_digit hc, hne.2⟩ ?_ ?_ ?_⟩
    · exact fun d hd => ink_of_digit (hpart.last d hd)
    · exact fun d hd => shown_of_ink (hpart.ink d hd)
    · intro fuel behind hb
      have hfirst : ∀ d ∈ (c :: more ++ behind).head?, d ≠ 45 := by
        rintro d ⟨⟩
        exact hne.1
      rw [List.cons_append, value_number fuel (.inl hc) (word?_digit hc _), ← List.cons_append,
        number_no_sign hfirst]
      exact hreads _ behind hb

theorem spelling_of_mem_words {word : Text × Json} (h : word ∈ words) :
    Spelling value word.1 word.2 := by
  simp only [words, List.mem_cons, List.not_mem_nil, or_false] at h
  rcases h with rfl | rfl | rfl | rfl | rfl | rfl <;>
    exact spelling_of_step ⟨_, _, rfl, by decide⟩ (by decide) (by decide) fun _ _ _ => rfl

theorem spelling_word {t rest : Text} {v : Json} (h : word? t = some (v, rest)) :
    ∃ piece, t = piece ++ rest ∧ Spelling value piece v := by
  obtain ⟨word, hword, hfound⟩ := List.exists_of_findSome?_eq_some h
  split at hfound
  · next hstart =>
      cases hfound
      obtain ⟨behind, rfl⟩ := List.isPrefixOf_iff_prefix.mp hstart
      exact ⟨word.1, by simp, spelling_of_mem_words hword⟩
  · cases hfound

theorem Quoted.spelling {piece name : Text} (h : Quoted false [] piece name) :
    Spelling value (34 :: piece) (.string name) := by
  refine spelling_of_step ⟨34, piece, rfl, by decide⟩ ?_ ?_ ?_
  · intro c hc
    rw [List.getLast?_cons_of_ne_nil h.ne_nil, h.last] at hc
    cases hc
    decide
  · exact List.forall_mem_cons.mpr ⟨by decide, fun c hm => .inr (h.shown c hm)⟩
  · intro fuel rest _
    exact value_quote fuel (h.reads _ rest)

/-! ### Arrays and objects -/

section Parts

variable {reader : Nat → Text → Step Json} {piece : Text} {v : Json}

theorem Spelling.skipSpace (h : Spelling reader piece v) (rest : Text) :
    skipSpace (piece ++ rest) = piece ++ rest := by
  obtain ⟨c, more, rfl, hc, -⟩ := h.starts
  exact skipSpace_cons hc.isSpace _

theorem Spelling.length_pos (h : Spelling reader piece v) : 0 < piece.length := by
  obtain ⟨c, more, rfl, -⟩ := h.starts
  exact Nat.succ_pos _

/-- A piece with more behind it starts as it does. -/
theorem Spelling.starts_append (h : Spelling reader piece v) (more : Text) :
    ∃ c rest, piece ++ more = c :: rest ∧ Ink c ∧ c ≠ 93 := by
  obtain ⟨c, rest, rfl, hc⟩ := h.starts
  exact ⟨c, rest ++ more, rfl, hc⟩

theorem Spelling.last_append (h : Spelling reader piece v) (front : Text) :
    ∀ c ∈ (front ++ piece).getLast?, Ink c := by
  intro c hc
  rw [List.getLast?_append] at hc
  rcases Option.or_eq_some_iff.mp hc with hlast | ⟨hnone, -⟩
  · exact h.last c hlast
  · rw [List.getLast?_eq_none_iff] at hnone
    rw [hnone] at h
    cases h.length_pos

end Parts

theorem last_of_mark {c : CodePoint} (hc : Ink c) (front : Text) :
    ∀ d ∈ (front ++ [c]).getLast?, Ink d := by
  rw [List.getLast?_concat]
  rintro d ⟨⟩
  exact hc

section Array

variable {item v : Json} {piece gap gap' more : Text} (hitem : Spelling value piece item)
  (hg : Gap gap) (hg' : Gap gap')

theorem spelling_emptyArray (hg : Gap gap) : Spelling value (91 :: (gap ++ [93])) (.array []) := by
  refine spelling_of_step ⟨91, _, rfl, by decide⟩ (last_of_mark (by decide) (91 :: gap)) ?_ ?_
  · exact List.forall_mem_cons.mpr
      ⟨by decide, List.forall_mem_append.mpr ⟨shown_of_gap hg, by decide⟩⟩
  · intro fuel rest _
    rw [List.cons_append, List.append_assoc]
    exact value_bracket_bracket hg fuel rest

theorem Spelling.bracket (h : Spelling (items · [] ·) more v) (hg : Gap gap) :
    Spelling value (91 :: (gap ++ more)) v where
  starts := ⟨91, _, rfl, by decide⟩
  last := h.last_append (91 :: gap)
  shown := List.forall_mem_cons.mpr
    ⟨by decide, List.forall_mem_append.mpr ⟨shown_of_gap hg, h.shown⟩⟩
  reads := by
    intro fuel rest hf hr
    simp only [List.length_cons, List.length_append] at hf
    obtain ⟨fuel, rfl⟩ : ∃ n, fuel = n + 1 := ⟨fuel - 1, by omega⟩
    have hreads := h.reads fuel rest (by omega) hr
    obtain ⟨c, left, rfl, hc, hbracket⟩ := h.starts
    have hstart : Starts c := by
      refine ⟨hc.isSpace, hbracket, ?_⟩
      rintro rfl
      exact absurd hc (by decide)
    rw [List.cons_append, List.append_assoc, List.cons_append, value_bracket hg fuel hstart]
    exact hreads

include hitem hg

theorem Spelling.lastItem (read : List Json) :
    Spelling (items · read ·) (piece ++ (gap ++ [93])) (.array (item :: read).reverse) where
  starts := hitem.starts_append _
  last := by
    rw [← List.append_assoc]
    exact last_of_mark (by decide) _
  shown := List.forall_mem_append.mpr
    ⟨hitem.shown, List.forall_mem_append.mpr ⟨shown_of_gap hg, by decide⟩⟩
  reads := by
    intro fuel rest hf hr
    simp only [List.length_append, List.length_singleton] at hf
    obtain ⟨fuel, rfl⟩ : ∃ n, fuel = n + 1 := ⟨fuel - 1, by omega⟩
    have hends : Ends (gap ++ 93 :: rest) := ends_of_space hg (ends_cons (by decide) rest)
    have hvalue := hitem.reads fuel (gap ++ 93 :: rest) (by omega) hends
    simp only [List.append_assoc, List.singleton_append]
    rw [items_of_value hvalue, afterItem_bracket hg]

include hg'

theorem Spelling.nextItem {read : List Json} (h : Spelling (items · (item :: read) ·) more v) :
    Spelling (items · read ·) (piece ++ (gap ++ 44 :: (gap' ++ more))) v where
  starts := hitem.starts_append _
  last := by
    have hlast := h.last_append (piece ++ (gap ++ 44 :: gap'))
    simpa using hlast
  shown := List.forall_mem_append.mpr ⟨hitem.shown, List.forall_mem_append.mpr
    ⟨shown_of_gap hg, List.forall_mem_cons.mpr
      ⟨by decide, List.forall_mem_append.mpr ⟨shown_of_gap hg', h.shown⟩⟩⟩⟩
  reads := by
    intro fuel rest hf hr
    simp only [List.length_append, List.length_cons] at hf
    obtain ⟨fuel, rfl⟩ : ∃ n, fuel = n + 1 := ⟨fuel - 1, by omega⟩
    have hends : Ends (gap ++ 44 :: (gap' ++ (more ++ rest))) :=
      ends_of_space hg (ends_cons (by decide) _)
    have hvalue := hitem.reads fuel _ (by omega) hends
    have hmore := h.reads fuel rest (by omega) hr
    simp only [List.append_assoc, List.cons_append]
    rw [items_of_value hvalue, afterItem_comma hg, skipSpace_append hg', h.skipSpace]
    exact hmore

end Array

section Object

variable {member v : Json} {piece body name gap gap' gap₁ gap₂ more : Text}
  (hname : Quoted false [] body name) (hmember : Spelling value piece member)
  (hg₁ : Gap gap₁) (hg₂ : Gap gap₂) (hg : Gap gap) (hg' : Gap gap')

theorem spelling_emptyObject (hg : Gap gap) :
    Spelling value (123 :: (gap ++ [125])) (.object []) := by
  refine spelling_of_step ⟨123, _, rfl, by decide⟩ (last_of_mark (by decide) (123 :: gap)) ?_ ?_
  · exact List.forall_mem_cons.mpr
      ⟨by decide, List.forall_mem_append.mpr ⟨shown_of_gap hg, by decide⟩⟩
  · intro fuel rest _
    rw [List.cons_append, List.append_assoc]
    exact value_brace_brace hg fuel rest

theorem Spelling.brace (h : Spelling (members · [] ·) (34 :: more) v) (hg : Gap gap) :
    Spelling value (123 :: (gap ++ 34 :: more)) v where
  starts := ⟨123, _, rfl, by decide⟩
  last := h.last_append (123 :: gap)
  shown := List.forall_mem_cons.mpr
    ⟨by decide, List.forall_mem_append.mpr ⟨shown_of_gap hg, h.shown⟩⟩
  reads := by
    intro fuel rest hf hr
    rw [List.length_cons, List.length_append] at hf
    obtain ⟨fuel, rfl⟩ : ∃ n, fuel = n + 1 := ⟨fuel - 1, by omega⟩
    rw [List.cons_append, List.append_assoc, List.cons_append, value_brace hg]
    exact h.reads fuel rest (by omega) hr

/-- A member, from the quote of its name on. -/
def memberPiece (body gap gap' piece : Text) : Text :=
  34 :: (body ++ (gap ++ 58 :: (gap' ++ piece)))

include hname hmember hg₁ hg₂

theorem shown_memberPiece :
    ∀ c ∈ memberPiece body gap₁ gap₂ piece, isSpace c = true ∨ 32 ≤ c :=
  List.forall_mem_cons.mpr ⟨by decide, List.forall_mem_append.mpr
    ⟨fun c hm => .inr (hname.shown c hm), List.forall_mem_append.mpr ⟨shown_of_gap hg₁,
      List.forall_mem_cons.mpr ⟨by decide, List.forall_mem_append.mpr
        ⟨shown_of_gap hg₂, hmember.shown⟩⟩⟩⟩⟩

theorem members_memberPiece {fuel : Nat} {rest : Text} (hf : piece.length ≤ fuel) (hr : Ends rest)
    (read : List (Text × Json)) :
    members (fuel + 1) read (memberPiece body gap₁ gap₂ piece ++ rest) =
      afterMember fuel (insert name member read) rest := by
  have hcolon : skipSpace (gap₁ ++ 58 :: (gap₂ ++ (piece ++ rest))) =
      58 :: (gap₂ ++ (piece ++ rest)) := by
    rw [skipSpace_append hg₁, skipSpace_cons rfl]
  have hvalue : value fuel (skipSpace (gap₂ ++ (piece ++ rest))) = .ok (member, rest) := by
    rw [skipSpace_append hg₂, hmember.skipSpace]
    exact hmember.reads fuel rest hf hr
  simp only [memberPiece, List.cons_append, List.append_assoc]
  exact members_of_value (hname.reads _ _) hcolon hvalue

include hg

theorem Quoted.lastMember (read : List (Text × Json)) :
    Spelling (members · read ·) (memberPiece body gap₁ gap₂ piece ++ (gap ++ [125]))
      (.object (insert name member read)) where
  starts := ⟨34, _, rfl, by decide⟩
  last := by
    rw [← List.append_assoc]
    exact last_of_mark (by decide) _
  shown := List.forall_mem_append.mpr ⟨shown_memberPiece hname hmember hg₁ hg₂,
    List.forall_mem_append.mpr ⟨shown_of_gap hg, by decide⟩⟩
  reads := by
    intro fuel rest hf hr
    simp only [memberPiece, List.length_append, List.length_cons, List.length_nil] at hf
    obtain ⟨fuel, rfl⟩ : ∃ n, fuel = n + 1 := ⟨fuel - 1, by omega⟩
    have hends : Ends (gap ++ 125 :: rest) := ends_of_space hg (ends_cons (by decide) rest)
    simp only [List.append_assoc, List.singleton_append]
    rw [members_memberPiece hname hmember hg₁ hg₂ (by omega) hends, afterMember_brace hg]

include hg'

theorem Quoted.nextMember {read : List (Text × Json)}
    (h : Spelling (members · (insert name member read) ·) more v) :
    Spelling (members · read ·)
      (memberPiece body gap₁ gap₂ piece ++ (gap ++ 44 :: (gap' ++ more))) v where
  starts := ⟨34, _, rfl, by decide⟩
  last := by
    have hlast := h.last_append (memberPiece body gap₁ gap₂ piece ++ (gap ++ 44 :: gap'))
    simpa using hlast
  shown := List.forall_mem_append.mpr ⟨shown_memberPiece hname hmember hg₁ hg₂,
    List.forall_mem_append.mpr ⟨shown_of_gap hg, List.forall_mem_cons.mpr
      ⟨by decide, List.forall_mem_append.mpr ⟨shown_of_gap hg', h.shown⟩⟩⟩⟩
  reads := by
    intro fuel rest hf hr
    simp only [memberPiece, List.length_append, List.length_cons] at hf
    obtain ⟨fuel, rfl⟩ : ∃ n, fuel = n + 1 := ⟨fuel - 1, by omega⟩
    have hends : Ends (gap ++ 44 :: (gap' ++ (more ++ rest))) :=
      ends_of_space hg (ends_cons (by decide) _)
    have hmore := h.reads fuel rest (by omega) hr
    simp only [List.append_assoc, List.cons_append]
    rw [members_memberPiece hname hmember hg₁ hg₂ (by omega) hends, afterMember_comma hg,
      skipSpace_append hg', h.skipSpace]
    exact hmore

end Object

/-! ### What was read -/

theorem afterItem_ok {fuel : Nat} {read : List Json} {t rest : Text} {v : Json}
    (h : afterItem fuel read t = .ok (v, rest)) :
    (∃ gap, Gap gap ∧ t = gap ++ 93 :: rest ∧ v = .array read.reverse) ∨
      ∃ gap gap' more, Gap gap ∧ Gap gap' ∧ t = gap ++ 44 :: (gap' ++ more) ∧
        items fuel read more = .ok (v, rest) := by
  obtain ⟨gap, ht, hg⟩ := exists_gap t
  unfold afterItem at h
  split at h
  · next behind hbehind =>
      cases h
      rw [hbehind] at ht
      exact .inl ⟨gap, hg, ht, rfl⟩
  · next behind hbehind =>
      obtain ⟨gap', hb, hg'⟩ := exists_gap behind
      rw [hbehind, hb] at ht
      exact .inr ⟨gap, gap', _, hg, hg', ht, h⟩
  · cases h

theorem afterMember_ok {fuel : Nat} {read : List (Text × Json)} {t rest : Text} {v : Json}
    (h : afterMember fuel read t = .ok (v, rest)) :
    (∃ gap, Gap gap ∧ t = gap ++ 125 :: rest ∧ v = .object read) ∨
      ∃ gap gap' more, Gap gap ∧ Gap gap' ∧ t = gap ++ 44 :: (gap' ++ more) ∧
        members fuel read more = .ok (v, rest) := by
  obtain ⟨gap, ht, hg⟩ := exists_gap t
  unfold afterMember at h
  split at h
  · next behind hbehind =>
      cases h
      rw [hbehind] at ht
      exact .inl ⟨gap, hg, ht, rfl⟩
  · next behind hbehind =>
      obtain ⟨gap', hb, hg'⟩ := exists_gap behind
      rw [hbehind, hb] at ht
      exact .inr ⟨gap, gap', _, hg, hg', ht, h⟩
  · cases h

theorem items_ok {fuel : Nat} {read : List Json} {t rest : Text} {v : Json}
    (h : items (fuel + 1) read t = .ok (v, rest)) :
    ∃ item behind, value fuel t = .ok (item, behind) ∧
      afterItem fuel (item :: read) behind = .ok (v, rest) := by
  cases hitem : value fuel t with
  | error halt =>
      rw [items, hitem] at h
      cases h
  | ok found =>
      obtain ⟨item, behind⟩ := found
      rw [items_of_value hitem] at h
      exact ⟨item, behind, rfl, h⟩

theorem members_ok {fuel : Nat} {read : List (Text × Json)} {t rest : Text} {v : Json}
    (h : members (fuel + 1) read t = .ok (v, rest)) :
    ∃ body name gap gap' behind member after, Gap gap ∧ Gap gap' ∧ t = 34 :: body ∧
      stringBody t false [] body = .ok (name, gap ++ 58 :: (gap' ++ behind)) ∧
      value fuel behind = .ok (member, after) ∧
      afterMember fuel (insert name member read) after = .ok (v, rest) := by
  rw [members.eq_def] at h
  simp only at h
  split at h
  · next body =>
      split at h
      · cases h
      · next name left hname =>
          obtain ⟨gap, hleft, hg⟩ := exists_gap left
          split at h
          · next behind hcolon =>
              obtain ⟨gap', hb, hg'⟩ := exists_gap behind
              rw [hcolon] at hleft
              split at h
              · cases h
              · next member after hmember =>
                  rw [hleft, hb] at hname
                  exact ⟨body, name, gap, gap', _, member, after, hg, hg', rfl, hname, hmember, h⟩
          · cases h
  · cases h

/-- The forms of a value, and what reads the rest of each. -/
theorem value_ok {fuel : Nat} {t rest : Text} {v : Json}
    (h : value (fuel + 1) t = .ok (v, rest)) :
    (∃ body name, t = 34 :: body ∧ v = .string name ∧
      stringBody t false [] body = .ok (name, rest)) ∨
    (∃ gap, Gap gap ∧ t = 123 :: (gap ++ 125 :: rest) ∧ v = .object []) ∨
    (∃ gap behind, Gap gap ∧ t = 123 :: (gap ++ behind) ∧
      members fuel [] behind = .ok (v, rest)) ∨
    (∃ gap, Gap gap ∧ t = 91 :: (gap ++ 93 :: rest) ∧ v = .array []) ∨
    (∃ gap behind, Gap gap ∧ t = 91 :: (gap ++ behind) ∧ items fuel [] behind = .ok (v, rest)) ∨
    word? t = some (v, rest) ∨ number t = .ok (v, rest) := by
  cases t with
  | nil => cases h
  | cons c t =>
      obtain ⟨gap, ht, hg⟩ := exists_gap t
      rw [value.eq_def] at h
      simp only at h
      split_ifs at h with hquote hbrace hbracket
      · subst hquote
        cases hbody : stringBody (34 :: t) false [] t with
        | error halt =>
            rw [hbody] at h
            cases h
        | ok found =>
            rw [hbody] at h
            cases h
            exact .inl ⟨t, found.1, rfl, rfl, hbody⟩
      · subst hbrace
        split at h
        · next behind hbehind =>
            cases h
            rw [hbehind] at ht
            exact .inr (.inl ⟨gap, hg, by rw [← ht], rfl⟩)
        · exact .inr (.inr (.inl ⟨gap, _, hg, by rw [← ht], h⟩))
      · subst hbracket
        split at h
        · next behind hbehind =>
            cases h
            rw [hbehind] at ht
            exact .inr (.inr (.inr (.inl ⟨gap, hg, by rw [← ht], rfl⟩)))
        · exact .inr (.inr (.inr (.inr (.inl ⟨gap, _, hg, by rw [← ht], h⟩))))
      · split at h
        · next found hfound =>
            cases h
            exact .inr (.inr (.inr (.inr (.inr (.inl hfound)))))
        · exact .inr (.inr (.inr (.inr (.inr (.inr h)))))

mutual

/-- What is read as a value is a piece at the start of the text. By induction on the fuel, which
each reader that a value needs has one unit less of. -/
theorem exists_spelling : ∀ (fuel : Nat) {t rest : Text} {v : Json},
    value fuel t = .ok (v, rest) → ∃ piece, t = piece ++ rest ∧ Spelling value piece v
  | 0, _, _, _, h => by
      rw [value] at h
      cases h
  | fuel + 1, t, rest, v, h => by
      obtain ⟨body, name, rfl, rfl, hbody⟩ |
        ⟨gap, hg, rfl, rfl⟩ | ⟨gap, behind, hg, rfl, hmembers⟩ |
        ⟨gap, hg, rfl, rfl⟩ | ⟨gap, behind, hg, rfl, hitems⟩ | hword | hnumber := value_ok h
      · obtain ⟨piece, rfl, hquoted⟩ := exists_quoted hbody
        exact ⟨34 :: piece, rfl, hquoted.spelling⟩
      · exact ⟨123 :: (gap ++ [125]), by simp, spelling_emptyObject hg⟩
      · obtain ⟨more, rfl, hmore⟩ := exists_membersSpelling fuel [] hmembers
        exact ⟨123 :: (gap ++ 34 :: more), by simp, hmore.brace hg⟩
      · exact ⟨91 :: (gap ++ [93]), by simp, spelling_emptyArray hg⟩
      · obtain ⟨more, rfl, hmore⟩ := exists_itemsSpelling fuel [] hitems
        exact ⟨91 :: (gap ++ more), by simp, hmore.bracket hg⟩
      · exact spelling_word hword
      · exact spelling_number hnumber

theorem exists_itemsSpelling : ∀ (fuel : Nat) (read : List Json) {t rest : Text} {v : Json},
    items fuel read t = .ok (v, rest) →
      ∃ piece, t = piece ++ rest ∧ Spelling (items · read ·) piece v
  | 0, _, _, _, _, h => by
      rw [items] at h
      cases h
  | fuel + 1, read, t, rest, v, h => by
      obtain ⟨item, behind, hvalue, hafter⟩ := items_ok h
      obtain ⟨piece, rfl, hitem⟩ := exists_spelling fuel hvalue
      obtain ⟨gap, hg, rfl, rfl⟩ | ⟨gap, gap', left, hg, hg', rfl, hleft⟩ := afterItem_ok hafter
      · exact ⟨_, by simp, hitem.lastItem hg read⟩
      · obtain ⟨more, rfl, hmore⟩ := exists_itemsSpelling fuel _ hleft
        exact ⟨_, by simp, hitem.nextItem hg hg' hmore⟩

theorem exists_membersSpelling : ∀ (fuel : Nat) (read : List (Text × Json)) {t rest : Text}
    {v : Json}, members fuel read t = .ok (v, rest) →
      ∃ more, t = 34 :: more ++ rest ∧ Spelling (members · read ·) (34 :: more) v
  | 0, _, _, _, _, h => by
      rw [members] at h
      cases h
  | fuel + 1, read, t, rest, v, h => by
      obtain ⟨body, name, gap₁, gap₂, behind, member, left, hg₁, hg₂, rfl, hbody, hvalue, hafter⟩ :=
        members_ok h
      obtain ⟨text, rfl, hname⟩ := exists_quoted hbody
      obtain ⟨piece, rfl, hmember⟩ := exists_spelling fuel hvalue
      obtain ⟨gap, hg, rfl, rfl⟩ | ⟨gap, gap', left, hg, hg', rfl, hleft⟩ := afterMember_ok hafter
      · exact ⟨_, by simp, hname.lastMember hmember hg₁ hg₂ hg read⟩
      · obtain ⟨more, rfl, hmore⟩ := exists_membersSpelling fuel _ hleft
        exact ⟨_, by simp, hname.nextMember hmember hg₁ hg₂ hg hg' hmore⟩

end

end RipWire.Json
