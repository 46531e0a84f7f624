import RipWire.Json.Reader
import RipWire.Proofs.Fault.Checks
import RipWire.Proofs.Json.Whole
import RipWire.Proofs.Text.Lines

/-!
# A document on each line

Texts that hold a value each, none of them over several lines, are put together with
line feeds. Two or more of them are not one document, so that the lines of the whole
are read. These are the texts that were put together unless a text has a line break
that is neither a line feed nor a carriage return: a value may have three of these
within a string, and is cut in two there.
-/

namespace RipWire.Json

open Checks (mapM_ok_iff mapM_ok_forall forall_mem_of_forall₂)

section Holds

variable {t : Text} {v : Json} (h : Holds t v)

include h

theorem Holds.exists_ink : ∃ c ∈ t, Ink c := by
  obtain ⟨gap, piece, gap', rfl, -, -, hspelling⟩ := h
  obtain ⟨c, rest, rfl, hc, -⟩ := hspelling.starts
  exact ⟨c, by simp, hc⟩

theorem Holds.ne_nil : t ≠ [] := by
  rintro rfl
  obtain ⟨c, hm, -⟩ := h.exists_ink
  cases hm

theorem Holds.shown : ∀ c ∈ t, isSpace c = true ∨ 32 ≤ c := by
  obtain ⟨gap, piece, gap', rfl, hg, hg', hspelling⟩ := h
  exact List.forall_mem_append.mpr ⟨shown_of_gap hg,
    List.forall_mem_append.mpr ⟨hspelling.shown, shown_of_gap hg'⟩⟩

end Holds

section Ink

variable {t : Text} (h : ∃ c ∈ t, Ink c)

include h

theorem not_gap_of_ink : ¬ Gap t := by
  intro hg
  obtain ⟨c, hm, hc⟩ := h
  have hspace := hg c hm
  rw [hc.isSpace] at hspace
  cases hspace

theorem not_blankLine_of_ink : isBlankLine t = false := by
  obtain ⟨c, hm, hc⟩ := h
  cases hblank : isBlankLine t with
  | false => rfl
  | true =>
      have hall := List.all_eq_true.mp hblank c hm
      rw [hc.isBlank] at hall
      cases hall

end Ink

/-! ### Breaks within a text -/

/-- A line break that a string of a document may have in it as it is. -/
def HasWideBreak (t : Text) : Prop :=
  0x85 ∈ t ∨ 0x2028 ∈ t ∨ 0x2029 ∈ t

instance (t : Text) : Decidable (HasWideBreak t) :=
  inferInstanceAs (Decidable (_ ∨ _))

theorem isWideBreak {c : Nat} (hc : Text.isLineBreak c = true)
    (hone : c ≠ 10 ∧ c ≠ 13) (hshown : isSpace c = true ∨ 32 ≤ c) :
    c = 0x85 ∨ c = 0x2028 ∨ c = 0x2029 := by
  have hbreak : ((((10 ≤ c ∧ c ≤ 13) ∨ 28 ≤ c ∧ c ≤ 30) ∨ c = 0x85) ∨ c = 0x2028) ∨ c = 0x2029 := by
    simpa [Text.isLineBreak] using hc
  have hspace : (((c = 32 ∨ c = 9) ∨ c = 10) ∨ c = 13) ∨ 32 ≤ c := by
    simpa [isSpace] using hshown
  omega

theorem exists_first_break {t : Text} (h : ∃ c ∈ t, Text.isLineBreak c = true) :
    ∃ front mark back, t = front ++ mark :: back ∧ Text.isLineBreak mark = true ∧
      ∀ c ∈ front, Text.isLineBreak c = false := by
  obtain ⟨mark, hfound⟩ := Option.isSome_iff_exists.mp (List.find?_isSome.mpr h)
  obtain ⟨hmark, front, back, ht, hfront⟩ := List.find?_eq_some_iff_append.mp hfound
  exact ⟨front, mark, back, ht, hmark, fun c hm => by simpa using hfront c hm⟩

/-- Of two marks in a text, the one that does not stand behind the other stands in front of it. -/
theorem mem_front {gap rest front back : Text} {c mark : CodePoint}
    (h : gap ++ c :: rest = front ++ mark :: back) (hne : c ≠ mark) (hgap : mark ∉ gap) :
    c ∈ front := by
  obtain ⟨more, rfl, hmore⟩ | ⟨more, rfl, hmore⟩ := List.append_eq_append_iff.mp h
  · cases more with
    | nil => exact (hne (List.cons.inj hmore).1).elim
    | cons d more =>
        rw [List.cons_append, List.cons.injEq] at hmore
        rw [hmore.1]
        simp
  · cases more with
    | nil => exact (hne (List.cons.inj hmore).1.symm).elim
    | cons d more =>
        rw [List.cons_append, List.cons.injEq] at hmore
        rw [hmore.1] at hgap
        simp at hgap

section Front

variable {t front back : Text} {v : Json} {mark : CodePoint} (h : Holds t v)
  (ht : t = front ++ mark :: back) (hspace : isSpace mark = false)

include h ht hspace

/-- The piece starts in front of the mark, since what stands before a piece is space. -/
theorem Holds.exists_ink_front (hmark : ¬ Ink mark) : ∃ c ∈ front, Ink c := by
  obtain ⟨gap, piece, gap', rfl, hg, -, hspelling⟩ := h
  obtain ⟨c, rest, rfl, hc, -⟩ := hspelling.starts
  refine ⟨c, mem_front ht ?_ ?_, hc⟩
  · rintro rfl
    exact hmark hc
  · intro hm
    rw [hg mark hm] at hspace
    cases hspace

/-- What goes on with the mark would be malformed behind a value. -/
theorem Holds.read_front_ne (hends : Ends (mark :: back)) (w : Json) : read front ≠ .ok w := by
  intro hread
  have hgap : ¬ Gap (mark :: back) := by
    intro hg
    rw [hg mark List.mem_cons_self] at hspace
    cases hspace
  obtain ⟨complaint, line, column, position, hbad⟩ := (read_ok_iff.mp hread).read_append hends hgap
  rw [← ht, read_ok_iff.mpr h] at hbad
  cases hbad

end Front

section OneLine

variable {t : Text} {v : Json} (h : Holds t v) (hone : t.OneLine)

include h hone

theorem Holds.isWideBreak {c : CodePoint} (hm : c ∈ t) (hc : Text.isLineBreak c = true) :
    c = 0x85 ∨ c = 0x2028 ∨ c = 0x2029 := by
  refine Json.isWideBreak hc ⟨?_, ?_⟩ (h.shown c hm)
  · rintro rfl
    exact hone.1 hm
  · rintro rfl
    exact hone.2 hm

theorem Holds.hasWideBreak_iff : HasWideBreak t ↔ ∃ c ∈ t, Text.isLineBreak c = true := by
  constructor
  · rintro (hm | hm | hm)
    · exact ⟨_, hm, by decide⟩
    · exact ⟨_, hm, by decide⟩
    · exact ⟨_, hm, by decide⟩
  · rintro ⟨c, hm, hc⟩
    obtain rfl | rfl | rfl := h.isWideBreak hone hm hc
    · exact .inl hm
    · exact .inr (.inl hm)
    · exact .inr (.inr hm)

theorem Holds.unbroken (hbreak : ¬ HasWideBreak t) : ∀ c ∈ t, Text.isLineBreak c = false := by
  intro c hm
  cases hc : Text.isLineBreak c with
  | false => rfl
  | true => exact (hbreak ((h.hasWideBreak_iff hone).mpr ⟨c, hm, hc⟩)).elim

/-- What stands in front of a break is part of a value, and no value. -/
theorem Holds.front_of_break (hbreak : HasWideBreak t) :
    ∃ front mark back, t = front ++ mark :: back ∧ Text.isLineBreak mark = true ∧ mark ≠ 13 ∧
      (∀ c ∈ front, Text.isLineBreak c = false) ∧ isBlankLine front = false ∧
      ∀ w, read front ≠ .ok w := by
  obtain ⟨front, mark, back, ht, hmark, hfront⟩ :=
    exists_first_break ((h.hasWideBreak_iff hone).mp hbreak)
  have hwide := h.isWideBreak hone (ht ▸ by simp) hmark
  have hplain : isSpace mark = false ∧ mark ≠ 13 ∧ ¬ Ink mark ∧
      Text.isAsciiDigit mark = false ∧ mark ≠ 46 ∧ mark ≠ 101 ∧ mark ≠ 69 := by
    obtain rfl | rfl | rfl := hwide <;> decide
  obtain ⟨hspace, hreturn, hink, hends⟩ := hplain
  exact ⟨front, mark, back, ht, hmark, hreturn, hfront,
    not_blankLine_of_ink (h.exists_ink_front ht hspace hink),
    h.read_front_ne ht hspace (ends_cons hends back)⟩

end OneLine

/-! ### Lines -/

theorem read_join_malformed {lines : List Text} {values : List Json}
    (h : List.Forall₂ Holds lines values) (hcount : lines.length ≠ 1) :
    ∃ complaint line column position,
      read (Text.join [10] lines) = .error (.malformed complaint line column position) := by
  cases h with
  | nil => exact ⟨_, _, _, _, rfl⟩
  | cons hline hrest =>
      cases hrest with
      | nil => exact (hcount rfl).elim
      | cons hnext _ =>
          obtain ⟨c, hm, hc⟩ := hnext.exists_ink
          rw [Text.join_cons_cons, List.append_assoc, List.singleton_append]
          refine hline.read_append (ends_cons (by decide) _) (not_gap_of_ink ⟨c, ?_, hc⟩)
          rw [Text.join_cons]
          exact List.mem_cons_of_mem _ (List.mem_append_left _ hm)

theorem exists_holds {lines : List Text} {values : List Json} (h : List.Forall₂ Holds lines values)
    {line : Text} (hm : line ∈ lines) : ∃ v, Holds line v := by
  obtain ⟨k, hk, rfl⟩ := List.mem_iff_getElem.mp hm
  exact ⟨_, (List.forall₂_iff_get.mp h).2 k hk (h.length_eq ▸ hk)⟩

/-- No line that holds a value is blank, and each is read as its value. -/
theorem onLines_join {lines : List Text} {values : List Json} (h : List.Forall₂ Holds lines values)
    (hl : ∀ line ∈ lines, ∀ c ∈ line, Text.isLineBreak c = false) :
    onLines (Text.join [10] lines) = .ok values := by
  have hne : ∀ line ∈ lines, line ≠ [] := by
    intro line hm
    obtain ⟨v, hv⟩ := exists_holds h hm
    exact hv.ne_nil
  have hkept : lines.filter (fun line => !isBlankLine line) = lines :=
    List.filter_eq_self.mpr fun line hm => by
      obtain ⟨v, hv⟩ := exists_holds h hm
      rw [not_blankLine_of_ink hv.exists_ink]
      rfl
  rw [onLines, Text.splitLines_join hne hl, hkept, mapM_ok_iff]
  exact h.imp fun _ _ hline => read_ok_iff.mpr hline

theorem exists_bad_line {lines : List Text} {values : List Json}
    (h : List.Forall₂ Holds lines values) (hone : ∀ line ∈ lines, line.OneLine)
    (hbreak : ∃ line ∈ lines, HasWideBreak line) :
    ∃ bad ∈ Text.splitLines (Text.join [10] lines), isBlankLine bad = false ∧
      ∀ w, read bad ≠ .ok w := by
  induction h with
  | nil =>
      obtain ⟨line, hm, -⟩ := hbreak
      cases hm
  | @cons line v lines values hline hrest ih =>
      obtain ⟨hfirst, hothers⟩ := List.forall_mem_cons.mp hone
      by_cases hwide : HasWideBreak line
      · obtain ⟨front, mark, back, rfl, hmark, hreturn, hfront, hblank, hread⟩ :=
          hline.front_of_break hfirst hwide
        refine ⟨front, ?_, hblank, hread⟩
        rw [Text.join_cons, List.append_assoc, List.cons_append,
          Text.splitLines_append hfront hmark hreturn]
        exact List.mem_cons_self
      · obtain ⟨other, hm, hother⟩ := hbreak
        have hmem : other ∈ lines := by
          rcases List.mem_cons.mp hm with rfl | hm
          · exact (hwide hother).elim
          · exact hm
        obtain ⟨bad, hbad, hfacts⟩ := ih hothers ⟨other, hmem, hother⟩
        refine ⟨bad, ?_, hfacts⟩
        cases lines with
        | nil => cases hmem
        | cons next lines =>
            rw [Text.join_cons_cons, List.append_assoc, List.singleton_append,
              Text.splitLines_append (hline.unbroken hfirst hwide) rfl (by decide)]
            exact List.mem_cons_of_mem _ hbad

theorem onLines_join_of_break {lines : List Text} {values : List Json}
    (h : List.Forall₂ Holds lines values) (hone : ∀ line ∈ lines, line.OneLine)
    (hbreak : ∃ line ∈ lines, HasWideBreak line) :
    ∃ error, onLines (Text.join [10] lines) = .error error := by
  obtain ⟨bad, hm, hblank, hread⟩ := exists_bad_line h hone hbreak
  cases hlines : onLines (Text.join [10] lines) with
  | error error => exact ⟨error, rfl⟩
  | ok found =>
      have hkept : bad ∈ (Text.splitLines (Text.join [10] lines)).filter
          (fun line => !isBlankLine line) := List.mem_filter.mpr ⟨hm, by rw [hblank]; rfl⟩
      obtain ⟨w, -, hw⟩ := mapM_ok_forall hlines hkept
      exact (hread w hw).elim

/-! ### Space around the lines -/

/-- A line without some of the space at the ends of a text. -/
def Around (t line : Text) : Prop :=
  ∃ gap gap', t = gap ++ (line ++ gap') ∧ Gap gap ∧ Gap gap'

theorem around_refl (t : Text) : Around t t :=
  ⟨[], [], by simp, gap_nil, gap_nil⟩

theorem Around.oneLine {t line : Text} (h : Around t line) (ht : t.OneLine) : line.OneLine := by
  obtain ⟨gap, gap', rfl, -, -⟩ := h
  exact ⟨fun hm => ht.1 (by simp [hm]), fun hm => ht.2 (by simp [hm])⟩

theorem Around.hasWideBreak_iff {t line : Text} (h : Around t line) :
    HasWideBreak t ↔ HasWideBreak line := by
  obtain ⟨gap, gap', rfl, hg, hg'⟩ := h
  have hnot (c : CodePoint) (hc : isSpace c = false) : c ∉ gap ∧ c ∉ gap' := by
    refine ⟨fun hm => ?_, fun hm => ?_⟩
    · rw [hg c hm] at hc
      cases hc
    · rw [hg' c hm] at hc
      cases hc
  simp only [HasWideBreak, List.mem_append, hnot 0x85 rfl, hnot 0x2028 rfl, hnot 0x2029 rfl,
    false_or, or_false]

theorem Holds.trim_front {t : Text} {v : Json} (h : Holds t v) :
    ∃ gap line, t = gap ++ line ∧ Gap gap ∧ Holds line v ∧
      ∀ c ∈ line.head?, Text.isBlank c = false := by
  obtain ⟨gap, piece, gap', rfl, hg, hg', hspelling⟩ := h
  refine ⟨gap, piece ++ gap', rfl, hg, ⟨[], piece, gap', rfl, gap_nil, hg', hspelling⟩, ?_⟩
  obtain ⟨c, rest, rfl, hc, -⟩ := hspelling.starts
  rintro d ⟨⟩
  exact hc.isBlank

theorem Holds.trim_back {t : Text} {v : Json} (h : Holds t v) :
    ∃ line gap, t = line ++ gap ∧ Gap gap ∧ Holds line v ∧
      ∀ c ∈ line.getLast?, Text.isBlank c = false := by
  obtain ⟨gap, piece, gap', rfl, hg, hg', hspelling⟩ := h
  exact ⟨gap ++ piece, gap', by simp, hg', ⟨gap, piece, [], by simp, hg, gap_nil, hspelling⟩,
    fun c hc => (hspelling.last_append gap c hc).isBlank⟩

/-- The space behind the last text comes last. -/
theorem exists_join_trim_back {t : Text} {texts : List Text} {v : Json} {values : List Json}
    (ht : Holds t v) (h : List.Forall₂ Holds texts values) :
    ∃ line lines gap, Text.join [10] (t :: texts) = Text.join [10] (line :: lines) ++ gap ∧
      Gap gap ∧ Holds line v ∧ List.Forall₂ Holds lines values ∧
      List.Forall₂ Around (t :: texts) (line :: lines) ∧
      ∀ c ∈ (Text.join [10] (line :: lines)).getLast?, Text.isBlank c = false := by
  induction h generalizing t v with
  | nil =>
      obtain ⟨line, gap, rfl, hg, hline, hlast⟩ := ht.trim_back
      have haround : Around (line ++ gap) line := ⟨[], gap, rfl, gap_nil, hg⟩
      exact ⟨line, [], gap, by simp [Text.join], hg, hline, .nil, .cons haround .nil,
        by simpa [Text.join] using hlast⟩
  | cons hnext _ ih =>
      obtain ⟨line, lines, gap, hjoin, hg, hline, hlines, haround, hlast⟩ := ih hnext
      refine ⟨t, line :: lines, gap, ?_, hg, ht, .cons hline hlines,
        .cons (around_refl t) haround, ?_⟩
      · rw [Text.join_cons_cons, hjoin, ← List.append_assoc, ← Text.join_cons_cons]
      · rw [Text.getLast?_join_cons_cons [10] t hline.ne_nil]
        exact hlast

/-- What trimming takes from texts that were put together is space at both ends, and the lines
that are left hold the same values. -/
theorem exists_trim_join {texts : List Text} {values : List Json}
    (h : List.Forall₂ Holds texts values) :
    ∃ lines, (Text.join [10] texts).trim = Text.join [10] lines ∧
      List.Forall₂ Holds lines values ∧ List.Forall₂ Around texts lines := by
  cases h with
  | nil => exact ⟨[], rfl, .nil, .nil⟩
  | @cons t v texts values ht htexts =>
      obtain ⟨line, lines, gap, hjoin, hg, hline, hlines, haround, hlast⟩ :=
        exists_join_trim_back ht htexts
      obtain ⟨front, first, rfl, hfront, hfirst, hhead⟩ := hline.trim_front
      have hsplit : Text.join [10] ((front ++ first) :: lines) =
          front ++ Text.join [10] (first :: lines) := by
        rw [Text.join_cons, Text.join_cons, List.append_assoc]
      obtain ⟨c, rest, rfl⟩ := List.exists_cons_of_ne_nil hfirst.ne_nil
      have hcore : Text.join [10] ((c :: rest) :: lines) =
          c :: (rest ++ lines.flatMap ([10] ++ ·)) := by
        rw [Text.join_cons, List.cons_append]
      refine ⟨(c :: rest) :: lines, ?_, .cons hfirst hlines, ?_⟩
      · have hbare : Text.Bare Text.isBlank (Text.join [10] ((c :: rest) :: lines)) := by
          refine ⟨?_, ?_⟩
          · rw [hcore]
            rintro d ⟨⟩
            exact hhead c rfl
          · rw [hsplit, List.getLast?_append_of_ne_nil _ (by rw [hcore]; simp)] at hlast
            exact hlast
        rw [hjoin, hsplit, List.append_assoc, Text.trim,
          Text.trimBy_append_left hfront.isBlank, Text.trimBy_append hbare hg.isBlank]
      · cases haround with
        | cons hfirst hothers =>
            obtain ⟨gap, gap', rfl, hgap, hgap'⟩ := hfirst
            refine .cons ⟨gap ++ front, gap', by simp, ?_, hgap'⟩ hothers
            exact List.forall_mem_append.mpr ⟨hgap, hfront⟩

/-! ### Documents -/

theorem documents_congr {t other : Text} (h : t.trim = other.trim) :
    documents t = documents other := by
  rw [documents, documents, h]

theorem documents_of_read {t : Text} {v : Json} (hv : ∀ items, v ≠ .array items)
    (h : read t = .ok v) : documents t = .ok [v] := by
  have htrim : read t.trim = .ok v := read_ok_iff.mpr (read_ok_iff.mp h).trim
  rw [documents, htrim]
  cases v with
  | array items => exact (hv items rfl).elim
  | _ => rfl

theorem documents_of_array {t : Text} {items : List Json} (h : read t = .ok (.array items)) :
    documents t = .ok items := by
  have htrim : read t.trim = .ok (.array items) := read_ok_iff.mpr (read_ok_iff.mp h).trim
  rw [documents, htrim]

theorem documents_of_malformed {t : Text} {complaint : Complaint} {line column position : Nat}
    (h : read t.trim = .error (.malformed complaint line column position)) :
    documents t = onLines t.trim := by
  rw [documents, h]

section Documents

variable {texts : List Text} {values : List Json}
  (hread : List.Forall₂ (fun t v => read t = .ok v) texts values)

include hread

theorem documents_single (hv : ∀ v ∈ values, ∀ items, v ≠ .array items) (hone : texts.length = 1) :
    documents (Text.join [10] texts) = .ok values := by
  obtain ⟨t, rfl⟩ := List.length_eq_one_iff.mp hone
  cases hread with
  | @cons _ v _ _ ht hnil =>
      cases hnil
      have hjoin : Text.join [10] [t] = t := by simp [Text.join]
      rw [hjoin]
      exact documents_of_read (hv v List.mem_cons_self) ht

theorem documents_several (hone : ∀ t ∈ texts, t.OneLine) (hcount : texts.length ≠ 1) :
    if ∀ t ∈ texts, ¬ HasWideBreak t then documents (Text.join [10] texts) = .ok values
    else ∃ error, documents (Text.join [10] texts) = .error error := by
  obtain ⟨lines, htrim, hlines, haround⟩ :=
    exists_trim_join (hread.imp fun _ _ => read_ok_iff.mp)
  have hcount' : lines.length ≠ 1 := haround.length_eq ▸ hcount
  have hone' : ∀ line ∈ lines, line.OneLine :=
    forall_mem_of_forall₂ haround (fun _ _ h => h.oneLine) hone
  obtain ⟨complaint, line, column, position, hbad⟩ := read_join_malformed hlines hcount'
  rw [← htrim] at hbad
  rw [documents_of_malformed hbad, htrim]
  split
  · next hnone =>
      have hnone' : ∀ line ∈ lines, ¬ HasWideBreak line :=
        forall_mem_of_forall₂ haround (fun _ _ h => mt h.hasWideBreak_iff.mpr) hnone
      refine onLines_join hlines fun line hm => ?_
      obtain ⟨v, hv⟩ := exists_holds hlines hm
      exact hv.unbroken (hone' line hm) (hnone' line hm)
  · next hsome =>
      refine onLines_join_of_break hlines hone' ?_
      by_contra hnone'
      refine hsome (forall_mem_of_forall₂ (P := fun line => ¬ HasWideBreak line) haround.flip ?_ ?_)
      · exact fun _ _ h => mt (Around.hasWideBreak_iff h).mp
      · exact fun line hm hwide => hnone' ⟨line, hm, hwide⟩

/-- The texts that were put together are what is read, a value from each, when there is one of them
only or none has a wide break in it. Otherwise nothing is read. -/
theorem documents_join (hv : ∀ v ∈ values, ∀ items, v ≠ .array items)
    (hone : ∀ t ∈ texts, t.OneLine) :
    if texts.length = 1 ∨ ∀ t ∈ texts, ¬ HasWideBreak t
      then documents (Text.join [10] texts) = .ok values
      else ∃ error, documents (Text.join [10] texts) = .error error := by
  by_cases hcount : texts.length = 1
  · rw [if_pos (.inl hcount)]
    exact documents_single hread hv hcount
  · have hseveral := documents_several hread hone hcount
    simpa [hcount] using hseveral

end Documents

/-- Two documents with space around them. -/
theorem documents_join_two :
    documents (text " 1\n\"a\" ") = .ok [.int 1, .string "a"] := by
  have hread : List.Forall₂ (fun t v => read t = .ok v) [text " 1", text "\"a\" "]
      [.int 1, .string "a"] := .cons rfl (.cons rfl .nil)
  have hjoin := documents_join hread (by simp) (by decide)
  rwa [if_pos (.inr (by decide))] at hjoin

/-- A string with a line separator in it is cut in two when another document stands behind it. -/
theorem not_documents_join_of_separator :
    ¬ ∀ (texts : List Text) (values : List Json), texts ≠ [] →
      List.Forall₂ (fun t v => read t = .ok v) texts values →
      (∀ v ∈ values, ∀ items, v ≠ .array items) → (∀ t ∈ texts, t.OneLine) →
      documents (Text.join [10] texts) = .ok values := by
  intro h
  have hread : List.Forall₂ (fun t v => read t = .ok v) [[34, 0x2028, 34], [49]]
      [.string [0x2028], .int 1] := .cons rfl (.cons rfl .nil)
  have hseveral := documents_several hread (by decide) (by decide)
  rw [if_neg (by decide), h _ _ (List.cons_ne_nil _ _) hread (by simp) (by decide)] at hseveral
  obtain ⟨error, herror⟩ := hseveral
  cases herror

end RipWire.Json
