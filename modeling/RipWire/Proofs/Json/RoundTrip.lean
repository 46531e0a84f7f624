import RipWire.Proofs.Json.Plain
import RipWire.Proofs.Json.Whole

/-!
# Reading what was written

A plain value is read back as itself from the text that it is written in, in any
layout that only adds white space. What stands behind that text is left for the
next reader, and is refused when a whole text is read.
-/

namespace RipWire.Json

/-- A layout that only adds white space around and between the parts of a value. -/
structure Layout.Spacious (layout : Layout) : Prop where
  opening : ∀ depth, ∀ c ∈ layout.opening depth, isSpace c = true
  between : ∀ depth, ∃ gap, layout.between depth = 44 :: gap ∧ ∀ c ∈ gap, isSpace c = true
  closing : ∀ depth, ∀ c ∈ layout.closing depth, isSpace c = true

theorem isSpace_newLine (depth : Nat) : ∀ c ∈ newLine depth, isSpace c = true := by
  intro c hm
  rcases List.mem_cons.mp hm with rfl | hm
  · rfl
  · rw [List.eq_of_mem_replicate hm]
    rfl

theorem spacious_oneLine : oneLine.Spacious where
  opening := by simp [oneLine]
  between := fun _ => ⟨[32], rfl, by simp [isSpace]⟩
  closing := by simp [oneLine]

theorem spacious_indented : indented.Spacious where
  opening := isSpace_newLine
  between := fun depth => ⟨newLine depth, rfl, isSpace_newLine depth⟩
  closing := fun depth => isSpace_newLine (depth - 1)

/-! ### Pieces -/

theorem insert_of_new {name : Text} {member : Json} {read : List (Text × Json)}
    (h : name ∉ read.map Prod.fst) : insert name member read = read ++ [(name, member)] := by
  induction read with
  | nil => rfl
  | cons other read ih =>
      rw [List.map_cons, List.mem_cons, not_or] at h
      rw [insert, if_neg (Ne.symm h.1), ih h.2, List.cons_append]

theorem new_of_nodup {name : Text} {v : Json} {read members : List (Text × Json)}
    (h : ((read ++ (name, v) :: members).map Prod.fst).Nodup) : name ∉ read.map Prod.fst := by
  intro hm
  rw [List.map_append, List.map_cons] at h
  exact (List.nodup_append.mp h).2.2 name hm name List.mem_cons_self rfl

theorem quoted_written {t : Text} (ht : t.IsAscii) :
    Quoted false [] (t.flatMap escapedPoint ++ [34]) t :=
  quoted_of_stringBody (stringBody_written ht [] false [] [])

theorem spelling_int {n : Int} (hn : Plain (.int n)) : Spelling value (Text.ofInt n) (.int n) := by
  obtain ⟨piece, hpiece, hspelling⟩ := spelling_number (number_written hn ends_nil)
  rw [List.append_nil, List.append_nil] at hpiece
  rw [hpiece]
  exact hspelling

section RoundTrip

variable {layout : Layout} (hlayout : layout.Spacious)

include hlayout

mutual

theorem spelling_written : ∀ (v : Json) (depth : Nat), Plain v →
    Spelling value (written layout depth v) v
  | .null, _, _ => spelling_of_mem_words (show (text "null", Json.null) ∈ words by simp [words])
  | .bool true, _, _ =>
      spelling_of_mem_words (show (text "true", Json.bool true) ∈ words by simp [words])
  | .bool false, _, _ =>
      spelling_of_mem_words (show (text "false", Json.bool false) ∈ words by simp [words])
  | .int n, _, hv => by
      rw [written]
      exact spelling_int hv
  | .float f, _, hv => by
      rw [Plain] at hv
      exact hv.elim
  | .string t, _, hv => by
      rw [written, writtenText, List.cons_append]
      exact (quoted_written hv).spelling
  | .array [], _, _ => spelling_emptyArray gap_nil
  | .array (item :: items), depth, hv => by
      rw [Plain, PlainItems] at hv
      have hitem := spelling_written item (depth + 1) hv.1
      have hitems := items_written items (depth + 1) [] hv.2 hitem
      have hbracket := hitems.bracket (hlayout.opening (depth + 1))
      simpa [written] using hbracket
  | .object [], _, _ => spelling_emptyObject gap_nil
  | .object ((name, v) :: members), depth, hv => by
      rw [Plain, PlainMembers] at hv
      obtain ⟨hnames, hname, hvalue, hmembers⟩ := hv
      have hmember := spelling_written v (depth + 1) hvalue
      have hall := members_written members (depth + 1) [] hnames hmembers (quoted_written hname)
        hmember
      have hbrace := hall.brace (hlayout.opening (depth + 1))
      simpa [written, writtenText, memberPiece, text] using hbrace

theorem items_written : ∀ (items : List Json) (depth : Nat) (read : List Json) {piece : Text}
    {item : Json}, PlainItems items → Spelling value piece item →
      Spelling (Json.items · read ·)
        (piece ++ (writtenItems layout depth items ++ (layout.closing depth ++ [93])))
        (.array (read.reverse ++ item :: items))
  | [], depth, read, piece, item, _, hitem => by
      have hlast := hitem.lastItem (hlayout.closing depth) read
      rwa [List.reverse_cons] at hlast
  | next :: items, depth, read, piece, item, hv, hitem => by
      rw [PlainItems] at hv
      obtain ⟨gap, hgap, hspace⟩ := hlayout.between depth
      have hnext := spelling_written next depth hv.1
      have hitems := items_written items depth (item :: read) hv.2 hnext
      have hall := hitem.nextItem gap_nil hspace hitems
      simpa [writtenItems, hgap] using hall

theorem members_written : ∀ (members : List (Text × Json)) (depth : Nat)
    (read : List (Text × Json)) {body piece name : Text} {v : Json},
      ((read ++ (name, v) :: members).map Prod.fst).Nodup → PlainMembers members →
      Quoted false [] body name → Spelling value piece v →
      Spelling (Json.members · read ·) (memberPiece body [] [32] piece ++
          (writtenMembers layout depth members ++ (layout.closing depth ++ [125])))
        (.object (read ++ (name, v) :: members))
  | [], depth, read, body, piece, name, v, hn, _, hname, hmember => by
      have hlast := hname.lastMember hmember gap_nil gap_blank (hlayout.closing depth) read
      rwa [insert_of_new (new_of_nodup hn)] at hlast
  | (other, next) :: members, depth, read, body, piece, name, v, hn, hv, hname, hmember => by
      rw [PlainMembers] at hv
      obtain ⟨hother, hvalue, hmembers⟩ := hv
      obtain ⟨gap, hgap, hspace⟩ := hlayout.between depth
      have hnew := new_of_nodup hn
      have hnext := spelling_written next depth hvalue
      rw [List.append_cons] at hn
      have hrest := members_written members depth (read ++ [(name, v)]) hn hmembers
        (quoted_written hother) hnext
      rw [← insert_of_new hnew] at hrest
      have hall := hname.nextMember hmember gap_nil gap_blank gap_nil hspace hrest
      rw [insert_of_new hnew] at hall
      simpa [writtenMembers, writtenText, memberPiece, hgap, text] using hall

end

/-! ### Whole texts -/

theorem holds_write {v : Json} (hv : Plain v) : Holds (write layout v) v :=
  (spelling_written hlayout v 0 hv).holds

theorem read_write {v : Json} (hv : Plain v) : read (write layout v) = .ok v :=
  read_ok_iff.mpr (holds_write hlayout hv)

end RoundTrip

/-! ### What is written -/

/-- A layout that adds nothing but code points of a class, to which ASCII belongs. -/
structure Layout.Within (P : CodePoint → Prop) (layout : Layout) : Prop where
  ascii : ∀ c, 32 ≤ c → c ≤ 126 → P c
  opening : ∀ depth, ∀ c ∈ layout.opening depth, P c
  between : ∀ depth, ∀ c ∈ layout.between depth, P c
  closing : ∀ depth, ∀ c ∈ layout.closing depth, P c

section Within

variable {P : CodePoint → Prop} {layout : Layout} (hlayout : layout.Within P)

include hlayout

theorem Layout.Within.of_isAscii {t : Text} (ht : t.IsAscii) : ∀ c ∈ t, P c :=
  fun c hm => hlayout.ascii c (ht c hm).1 (ht c hm).2

theorem writtenText_within {t : Text} (ht : t.IsAscii) : ∀ c ∈ writtenText t, P c := by
  refine hlayout.of_isAscii ?_
  intro c hm
  simp only [writtenText, List.mem_append, List.mem_cons, List.mem_flatMap, List.not_mem_nil,
    or_false] at hm
  rcases hm with (rfl | ⟨d, hd, hm⟩) | rfl
  · decide
  · obtain ⟨hl, hr⟩ := ht d hd
    rw [escapedPoint_of_ascii hl hr] at hm
    split at hm
    · rcases List.mem_cons.mp hm with rfl | hm
      · decide
      · rw [List.mem_singleton.mp hm]
        exact ⟨hl, hr⟩
    · rw [List.mem_singleton.mp hm]
      exact ⟨hl, hr⟩
  · decide

theorem ofInt_within (n : Int) : ∀ c ∈ Text.ofInt n, P c := by
  refine hlayout.of_isAscii ?_
  cases n with
  | ofNat n => exact Text.isAscii_ofNat n
  | negSucc n => exact List.forall_mem_cons.mpr ⟨by decide, Text.isAscii_ofNat (n + 1)⟩

mutual

theorem written_within : ∀ (v : Json) (depth : Nat), Plain v → ∀ c ∈ written layout depth v, P c
  | .null, _, _ => hlayout.of_isAscii (show (text "null").IsAscii by decide)
  | .bool true, _, _ => hlayout.of_isAscii (show (text "true").IsAscii by decide)
  | .bool false, _, _ => hlayout.of_isAscii (show (text "false").IsAscii by decide)
  | .int n, _, _ => ofInt_within hlayout n
  | .float f, _, hv => by
      rw [Plain] at hv
      exact hv.elim
  | .string t, _, hv => by
      rw [Plain] at hv
      exact writtenText_within hlayout hv
  | .array [], _, _ => hlayout.of_isAscii (show (text "[]").IsAscii by decide)
  | .array (item :: items), depth, hv => by
      rw [Plain, PlainItems] at hv
      have hitem := written_within item (depth + 1) hv.1
      have hitems := writtenItems_within items (depth + 1) hv.2
      simp only [written, List.cons_append, List.forall_mem_cons, List.forall_mem_append]
      exact ⟨hlayout.ascii 91 (by decide) (by decide), ⟨⟨⟨hlayout.opening _, hitem⟩, hitems⟩,
        hlayout.closing _⟩, hlayout.ascii 93 (by decide) (by decide), by simp⟩
  | .object [], _, _ => hlayout.of_isAscii (show Text.IsAscii [123, 125] by decide)
  | .object ((name, v) :: members), depth, hv => by
      rw [Plain, PlainMembers] at hv
      obtain ⟨-, hname, hvalue, hmembers⟩ := hv
      have hname := writtenText_within hlayout hname
      have hcolon := hlayout.of_isAscii (show (text ": ").IsAscii by decide)
      have hvalue := written_within v (depth + 1) hvalue
      have hmembers := writtenMembers_within members (depth + 1) hmembers
      simp only [written, List.cons_append, List.forall_mem_cons, List.forall_mem_append]
      exact ⟨hlayout.ascii 123 (by decide) (by decide), ⟨⟨⟨⟨⟨hlayout.opening _, hname⟩, hcolon⟩,
        hvalue⟩, hmembers⟩, hlayout.closing _⟩, hlayout.ascii 125 (by decide) (by decide), by simp⟩

theorem writtenItems_within : ∀ (items : List Json) (depth : Nat), PlainItems items →
    ∀ c ∈ writtenItems layout depth items, P c
  | [], _, _ => by simp [writtenItems]
  | item :: items, depth, hv => by
      rw [PlainItems] at hv
      simp only [writtenItems, List.forall_mem_append]
      exact ⟨⟨hlayout.between depth, written_within item depth hv.1⟩,
        writtenItems_within items depth hv.2⟩

theorem writtenMembers_within : ∀ (members : List (Text × Json)) (depth : Nat),
    PlainMembers members → ∀ c ∈ writtenMembers layout depth members, P c
  | [], _, _ => by simp [writtenMembers]
  | (name, v) :: members, depth, hv => by
      rw [PlainMembers] at hv
      obtain ⟨hname, hvalue, hmembers⟩ := hv
      simp only [writtenMembers, List.forall_mem_append]
      exact ⟨⟨⟨⟨hlayout.between depth, writtenText_within hlayout hname⟩,
        hlayout.of_isAscii (show (text ": ").IsAscii by decide)⟩, written_within v depth hvalue⟩,
        writtenMembers_within members depth hmembers⟩

end

end Within

theorem within_oneLine : oneLine.Within fun c => 32 ≤ c ∧ c ≤ 126 where
  ascii := fun _ hl hr => ⟨hl, hr⟩
  opening := by simp [oneLine]
  between := fun _ => (show (text ", ").IsAscii by decide)
  closing := by simp [oneLine]

theorem within_indented : indented.Within fun c => c = 10 ∨ 32 ≤ c ∧ c ≤ 126 := by
  have hline (depth : Nat) : ∀ c ∈ newLine depth, c = 10 ∨ 32 ≤ c ∧ c ≤ 126 := by
    intro c hm
    rcases List.mem_cons.mp hm with rfl | hm
    · exact .inl rfl
    · rw [List.eq_of_mem_replicate hm]
      exact .inr (by decide)
  exact ⟨fun _ hl hr => .inr ⟨hl, hr⟩, hline,
    fun depth => List.forall_mem_cons.mpr ⟨.inr (by decide), hline depth⟩,
    fun depth => hline (depth - 1)⟩

theorem isAscii_write {v : Json} (hv : Plain v) : (write oneLine v).IsAscii :=
  written_within within_oneLine v 0 hv

end RipWire.Json
