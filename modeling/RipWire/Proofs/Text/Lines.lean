import RipWire.Proofs.Text.Trimmed
import RipWire.Proofs.Text.Written
import RipWire.Text.Basic

/-!
# Lines without breaks

Lines without breaks, put together with line feeds, are the lines of the text that
they make. A line that does have breaks is read as several, and these make up no
more than it had.
-/

namespace RipWire.Text

/-- A text without a line feed or a carriage return. -/
def OneLine (t : Text) : Prop :=
  10 ∉ t ∧ 13 ∉ t

instance (t : Text) : Decidable t.OneLine :=
  inferInstanceAs (Decidable (_ ∧ _))

theorem OneLine.append {t more : Text} (ht : t.OneLine) (hm : more.OneLine) :
    OneLine (t ++ more) := by
  refine ⟨?_, ?_⟩
  · exact mt List.mem_append.mp (not_or.mpr ⟨ht.1, hm.1⟩)
  · exact mt List.mem_append.mp (not_or.mpr ⟨ht.2, hm.2⟩)

theorem OneLine.trimRight {t : Text} (h : t.OneLine) : t.trimRight.OneLine := by
  obtain ⟨gap, hgap, -⟩ := exists_trimRight_append t
  rw [hgap] at h
  exact ⟨fun hm => h.1 (List.mem_append_left _ hm), fun hm => h.2 (List.mem_append_left _ hm)⟩

theorem not_mem_flatMap {lines : List Text} (h : ∀ line ∈ lines, OneLine line) :
    13 ∉ lines.flatMap (· ++ [10]) := by
  intro hm
  obtain ⟨line, hline, hm⟩ := List.mem_flatMap.mp hm
  rcases List.mem_append.mp hm with hm | hm
  · exact (h line hline).2 hm
  · exact absurd hm (by decide)

theorem unixNewlines_cons (c : CodePoint) (t : Text) :
    unixNewlines (c :: t) =
      if c = 13 ∧ t.head? = some 10 then unixNewlines t
      else (if c = 13 then 10 else c) :: unixNewlines t := by
  by_cases hpair : c = 13 ∧ t.head? = some 10
  · obtain ⟨rfl, hfeed⟩ := hpair
    obtain ⟨rest, rfl⟩ := List.head?_eq_some_iff.mp hfeed
    simp [unixNewlines]
  · rw [if_neg hpair, unixNewlines]
    rintro rest rfl rfl
    exact hpair ⟨rfl, rfl⟩

theorem unixNewlines_append {t : Text} (h : 13 ∉ t) (rest : Text) :
    unixNewlines (t ++ rest) = t ++ unixNewlines rest := by
  induction t with
  | nil => rfl
  | cons c t ih =>
      rw [List.mem_cons, not_or] at h
      have hc : c ≠ 13 := Ne.symm h.1
      rw [List.cons_append, unixNewlines_cons, if_neg (fun hpair => hc hpair.1), if_neg hc, ih h.2]
      rfl

theorem unixNewlines_eq_self {t : Text} (h : 13 ∉ t) : unixNewlines t = t := by
  have happend := unixNewlines_append h []
  rwa [unixNewlines, List.append_nil] at happend

/-- What a text in front of a line feed is read as: nothing that is longer, and the same to start
with unless that is white space. -/
theorem exists_unixNewlines (t rest : Text) :
    ∃ u : Text, unixNewlines (t ++ 10 :: rest) = u ++ 10 :: unixNewlines rest ∧
      u.length ≤ t.length ∧ 13 ∉ u ∧ (t.StartsSolid → u.StartsSolid) := by
  induction t with
  | nil =>
      refine ⟨[], ?_, Nat.le_refl _, List.not_mem_nil, id⟩
      rw [List.nil_append, unixNewlines_cons, if_neg (fun h => absurd h.1 (by decide))]
      rfl
  | cons c t ih =>
      obtain ⟨u, hu, hlength, hreturn, -⟩ := ih
      rw [List.cons_append, unixNewlines_cons, hu]
      by_cases hpair : c = 13 ∧ (t ++ 10 :: rest).head? = some 10
      · rw [if_pos hpair]
        refine ⟨u, rfl, Nat.le_succ_of_le hlength, hreturn, ?_⟩
        rintro ⟨d, more, hd, hsolid⟩
        cases hd
        rw [hpair.1] at hsolid
        cases hsolid
      · rw [if_neg hpair]
        refine ⟨(if c = 13 then 10 else c) :: u, rfl, Nat.succ_le_succ hlength, ?_, ?_⟩
        · rw [List.mem_cons, not_or]
          refine ⟨?_, hreturn⟩
          split
          · decide
          · next hc => exact Ne.symm hc
        · rintro ⟨d, more, hd, hsolid⟩
          cases hd
          have hc : c ≠ 13 := by
            rintro rfl
            cases hsolid
          exact ⟨c, u, by rw [if_neg hc], hsolid⟩

theorem join_cutAt (c : CodePoint) (t : Text) : join [c] (t.cutAt c) = t := by
  rw [cutAt_eq_splitOn]
  exact List.intercalate_splitOn c

theorem not_mem_of_mem_cutAt {c : CodePoint} {t piece : Text} (h : piece ∈ t.cutAt c) :
    c ∉ piece := by
  induction t generalizing piece with
  | nil =>
      rw [List.mem_singleton.mp h]
      exact List.not_mem_nil
  | cons d t ih =>
      rw [cutAt, List.foldr_cons] at h
      rw [cutAt] at ih
      split at h
      · rcases List.mem_cons.mp h with rfl | h
        · exact List.not_mem_nil
        · exact ih h
      · next hd =>
          split at h
          · rw [List.mem_singleton.mp h]
            exact mt List.mem_singleton.mp (Ne.symm hd)
          · next first rest hrest =>
              rw [hrest] at ih
              rcases List.mem_cons.mp h with rfl | h
              · exact mt List.mem_cons.mp (not_or.mpr ⟨Ne.symm hd, ih List.mem_cons_self⟩)
              · exact ih (List.mem_cons_of_mem _ h)

theorem cutAt_append {c : CodePoint} {front back piece : Text} {more : List Text}
    (hf : c ∉ front) (hb : back.cutAt c = piece :: more) :
    cutAt c (front ++ back) = (front ++ piece) :: more := by
  induction front with
  | nil => exact hb
  | cons d front ih =>
      rw [List.mem_cons, not_or] at hf
      have hrest := ih hf.2
      rw [cutAt] at hrest
      rw [List.cons_append, cutAt, List.foldr_cons, hrest, if_neg (Ne.symm hf.1)]
      rfl

theorem join_cons (separator first : Text) (rest : List Text) :
    join separator (first :: rest) = first ++ rest.flatMap (separator ++ ·) := by
  induction rest generalizing first with
  | nil => simp [join]
  | cons second rest ih =>
      rw [join_cons_cons, ih second, List.flatMap_cons, List.append_assoc, List.append_assoc]

theorem getLast?_join_cons_cons (separator line : Text) {next : Text} (hne : next ≠ [])
    (pieces : List Text) : (join separator (line :: next :: pieces)).getLast? =
      (join separator (next :: pieces)).getLast? := by
  have hjoin : join separator (next :: pieces) ≠ [] := by
    rw [join_cons]
    exact List.append_ne_nil_of_left_ne_nil hne _
  rw [join_cons_cons, List.getLast?_append, List.getLast?_eq_some_getLast hjoin, Option.some_or]

theorem mem_join {separator : Text} {pieces : List Text} {c : CodePoint}
    (h : c ∈ join separator pieces) : c ∈ separator ∨ ∃ piece ∈ pieces, c ∈ piece := by
  cases pieces with
  | nil => simp [join] at h
  | cons first rest =>
      rw [join_cons, List.mem_append, List.mem_flatMap] at h
      rcases h with h | ⟨piece, hm, h⟩
      · exact .inr ⟨first, List.mem_cons_self, h⟩
      · rcases List.mem_append.mp h with h | h
        · exact .inl h
        · exact .inr ⟨piece, List.mem_cons_of_mem _ hm, h⟩

theorem oneLine_join {separator : Text} {pieces : List Text} (hs : separator.OneLine)
    (hp : ∀ piece ∈ pieces, OneLine piece) : OneLine (join separator pieces) := by
  refine ⟨?_, ?_⟩
  · intro hm
    cases mem_join hm with
    | inl hm => exact hs.1 hm
    | inr hm =>
        obtain ⟨piece, hpiece, hm⟩ := hm
        exact (hp piece hpiece).1 hm
  · intro hm
    cases mem_join hm with
    | inl hm => exact hs.2 hm
    | inr hm =>
        obtain ⟨piece, hpiece, hm⟩ := hm
        exact (hp piece hpiece).2 hm

theorem join_empty (pieces : List Text) : join [] pieces = pieces.flatten := by
  cases pieces with
  | nil => rfl
  | cons first rest =>
      rw [join_cons, List.flatten_cons]
      simp [List.flatMap_def]

theorem bare_join {dropped : CodePoint → Bool} (separator : Text) {pieces : List Text}
    (h : ∀ piece ∈ pieces, piece ≠ [] ∧ Bare dropped piece) :
    Bare dropped (join separator pieces) := by
  induction pieces with
  | nil => exact ⟨by simp [join], by simp [join]⟩
  | cons first rest ih =>
      obtain ⟨⟨hne, hfirst⟩, hmore⟩ := List.forall_mem_cons.mp h
      cases rest with
      | nil => simpa [join] using hfirst
      | cons next rest =>
          refine ⟨?_, ?_⟩
          · obtain ⟨c, more, rfl⟩ := List.exists_cons_of_ne_nil hne
            rw [join_cons_cons]
            exact hfirst.first
          · rw [getLast?_join_cons_cons separator first (hmore next List.mem_cons_self).1]
            exact (ih hmore).last

theorem fileLines_append (t rest : Text) :
    fileLines (t ++ 10 :: rest) = (t.cutAt 10).map (· ++ [10]) ++ fileLines rest := by
  induction t with
  | nil => rfl
  | cons c t ih =>
      rw [List.cons_append, fileLines, ih]
      by_cases hc : c = 10
      · simp [hc, cutAt]
      · cases hcut : cutAt 10 t with
        | nil => exact (cutAt_cons_ne_nil 10 t hcut).elim
        | cons piece more =>
            rw [cutAt] at hcut
            simp [hc, cutAt, hcut]

theorem fileLines_flatMap (lines : List Text) :
    fileLines (lines.flatMap (· ++ [10])) = (lines.flatMap (cutAt 10)).map (· ++ [10]) := by
  induction lines with
  | nil => rfl
  | cons line lines ih =>
      rw [List.flatMap_cons, List.append_assoc, List.singleton_append, fileLines_append, ih,
        List.flatMap_cons, List.map_append]

theorem flatMap_cutAt_eq_self {lines : List Text} (h : ∀ line ∈ lines, 10 ∉ line) :
    lines.flatMap (cutAt 10) = lines := by
  induction lines with
  | nil => rfl
  | cons line lines ih =>
      obtain ⟨hline, hmore⟩ := List.forall_mem_cons.mp h
      rw [List.flatMap_cons, ih hmore, cutAt_eq_splitOn, List.splitOn_eq_singleton hline]
      rfl

theorem fileLines_of_lines {lines : List Text} (h : ∀ line ∈ lines, 10 ∉ line) :
    fileLines (lines.flatMap (· ++ [10])) = lines.map (· ++ [10]) := by
  rw [fileLines_flatMap, flatMap_cutAt_eq_self h]

theorem fileLines_of_oneLine {lines : List Text} (h : ∀ line ∈ lines, OneLine line) :
    fileLines (unixNewlines (lines.flatMap (· ++ [10]))) = lines.map (· ++ [10]) := by
  rw [unixNewlines_eq_self (not_mem_flatMap h), fileLines_of_lines fun line hm => (h line hm).1]

/-- What comes behind this text starts a line. -/
def EndsLine (t : Text) : Prop :=
  ∀ c ∈ t.getLast?, c = 10

/-- What comes in front of this text ends where it starts. -/
def StartsBreak (t : Text) : Prop :=
  ∀ c ∈ t.head?, c = 10

theorem fileLines_of_not_mem {line : Text} (hfeed : 10 ∉ line) (hne : line ≠ []) :
    fileLines line = [line] := by
  induction line with
  | nil => exact absurd rfl hne
  | cons c line ih =>
      rw [List.mem_cons, not_or] at hfeed
      rw [fileLines, if_neg (Ne.symm hfeed.1)]
      cases line with
      | nil => rfl
      | cons d line => rw [ih hfeed.2 (List.cons_ne_nil _ _)]

theorem fileLines_append_of_endsLine {t : Text} (ht : t.EndsLine) (rest : Text) :
    fileLines (t ++ rest) = fileLines t ++ fileLines rest := by
  rcases List.eq_nil_or_concat t with hnil | ⟨front, last, hlast⟩
  · rw [hnil]
    rfl
  · have hfeed : last = 10 := ht last (by simp [hlast])
    rw [hlast, hfeed, List.concat_eq_append, List.append_assoc, List.singleton_append,
      fileLines_append, fileLines_append]
    simp [fileLines]

theorem startsSolid_of_join {first : Text} {more : List Text}
    (h : (join [10] (first :: more)).StartsSolid) : first.StartsSolid := by
  obtain ⟨c, rest, hc, hsolid⟩ := h
  rw [join_cons] at hc
  cases first with
  | nil =>
      cases more with
      | nil => cases hc
      | cons line more =>
          cases hc
          cases hsolid
  | cons d first =>
      cases hc
      exact ⟨c, first, rfl, hsolid⟩

/-- A line with a value at its end that has breaks in it, among lines without: the value makes a
line of its own for each break, and all of these together are no longer than it was. -/
theorem exists_fileLines {front behind : List Text} {name : Text}
    (hfront : ∀ line ∈ front, OneLine line) (hname : name.OneLine)
    (hbehind : ∀ line ∈ behind, OneLine line) (value : Text) :
    ∃ (first : Text) (more : List Text),
      fileLines (unixNewlines ((front ++ (name ++ value) :: behind).flatMap (· ++ [10]))) =
        (front ++ (name ++ first) :: (more ++ behind)).map (· ++ [10]) ∧
      (join [10] (first :: more)).length ≤ value.length ∧ first.OneLine ∧
      (value.StartsSolid → first.StartsSolid) := by
  obtain ⟨u, hu, hlength, hreturn, hstart⟩ :=
    exists_unixNewlines value (behind.flatMap (· ++ [10]))
  obtain ⟨first, more, hcut⟩ := List.exists_cons_of_ne_nil (cutAt_cons_ne_nil 10 u)
  have hjoin : join [10] (first :: more) = u := by rw [← hcut, join_cutAt]
  refine ⟨first, more, ?_, by rw [hjoin]; exact hlength, ⟨?_, ?_⟩, ?_⟩
  · have hflat : (front ++ (name ++ value) :: behind).flatMap (· ++ [10]) =
        (front.flatMap (· ++ [10]) ++ name) ++ (value ++ 10 :: behind.flatMap (· ++ [10])) := by
      simp
    have hbefore : 13 ∉ front.flatMap (· ++ [10]) ++ name :=
      mt List.mem_append.mp (not_or.mpr ⟨not_mem_flatMap hfront, hname.2⟩)
    have hunix : unixNewlines ((front ++ (name ++ value) :: behind).flatMap (· ++ [10])) =
        (front ++ (name ++ u) :: behind).flatMap (· ++ [10]) := by
      rw [hflat, unixNewlines_append hbefore, hu, unixNewlines_eq_self (not_mem_flatMap hbehind)]
      simp
    rw [hunix, fileLines_flatMap, List.flatMap_append, List.flatMap_cons,
      flatMap_cutAt_eq_self fun line hm => (hfront line hm).1,
      flatMap_cutAt_eq_self fun line hm => (hbehind line hm).1, cutAt_append hname.1 hcut]
    rfl
  · have hmem : first ∈ u.cutAt 10 := by
      rw [hcut]
      exact List.mem_cons_self
    exact not_mem_of_mem_cutAt hmem
  · rw [← hjoin, join_cons] at hreturn
    exact fun hm => hreturn (List.mem_append_left _ hm)
  · intro hv
    have hsolid := hstart hv
    rw [← hjoin] at hsolid
    exact startsSolid_of_join hsolid

/-- A line ends at the first break; a carriage return may be half of one. -/
theorem splitLines_append {line : Text} (hl : ∀ c ∈ line, isLineBreak c = false) {mark : CodePoint}
    (hm : isLineBreak mark = true) (hreturn : mark ≠ 13) (rest : Text) :
    splitLines (line ++ mark :: rest) = line :: splitLines rest := by
  induction line with
  | nil =>
      rw [List.nil_append, splitLines, if_pos hm]
      exact fun _ h => absurd h hreturn
  | cons c line ih =>
      obtain ⟨hc, hmore⟩ := List.forall_mem_cons.mp hl
      rw [List.cons_append, splitLines, if_neg (by simp [hc]), ih hmore]
      rintro more rfl
      cases hc

theorem splitLines_of_unbroken {line : Text} (hl : ∀ c ∈ line, isLineBreak c = false)
    (hne : line ≠ []) : splitLines line = [line] := by
  induction line with
  | nil => exact (hne rfl).elim
  | cons c line ih =>
      obtain ⟨hc, hmore⟩ := List.forall_mem_cons.mp hl
      rw [splitLines, if_neg (by simp [hc])]
      · cases line with
        | nil => rfl
        | cons d line => rw [ih hmore (by simp)]
      · rintro more rfl
        cases hc

theorem splitLines_join {lines : List Text} (hne : ∀ line ∈ lines, line ≠ [])
    (hl : ∀ line ∈ lines, ∀ c ∈ line, isLineBreak c = false) :
    splitLines (join [10] lines) = lines := by
  induction lines with
  | nil => rfl
  | cons line lines ih =>
      obtain ⟨hline, hmore⟩ := List.forall_mem_cons.mp hl
      obtain ⟨hfirst, hothers⟩ := List.forall_mem_cons.mp hne
      cases lines with
      | nil =>
          rw [join, List.intersperse_singleton, List.flatten_singleton]
          exact splitLines_of_unbroken hline hfirst
      | cons next lines =>
          rw [join_cons_cons, List.append_assoc, List.singleton_append,
            splitLines_append hline rfl (by decide), ih hothers hmore]

theorem count_feeds {lines : List Text} (h : ∀ line ∈ lines, 10 ∉ line) :
    (lines.flatMap (· ++ [10])).count 10 = lines.length := by
  induction lines with
  | nil => rfl
  | cons line lines ih =>
      obtain ⟨hline, hmore⟩ := List.forall_mem_cons.mp h
      rw [List.flatMap_cons, List.count_append, List.count_append, List.count_eq_zero.mpr hline,
        ih hmore, List.length_cons]
      simp [Nat.add_comm]

theorem flatMap_lineFeed {lines : List Text} (hne : lines ≠ []) :
    lines.flatMap (· ++ [10]) = join [10] lines ++ [10] := by
  induction lines with
  | nil => exact (hne rfl).elim
  | cons line lines ih =>
      cases lines with
      | nil => simp [join]
      | cons next lines =>
          rw [List.flatMap_cons, ih (by simp), join_cons_cons]
          simp

end RipWire.Text
