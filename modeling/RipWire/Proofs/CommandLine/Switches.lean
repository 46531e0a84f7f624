import Mathlib.Tactic.FinCases
import RipWire.CommandLine.Arguments

/-!
# Switches right behind the command

A switch that stands right behind the command is turned on, and that is all it does: what
follows it is read as it would be without it.
-/

namespace RipWire.CommandLine

/-- Progress with more switches in front of those that have been turned on. -/
def Progress.preceded (front : List Switch) (p : Progress) : Progress :=
  { p with switches := front ++ p.switches }

/-- A command line with more switches in front of those that its request turns on. -/
def Parsed.preceded (front : List Switch) : Parsed → Parsed
  | .request r => .request { r with switches := front ++ r.switches }
  | parsed => parsed

theorem Parsed.preceded_nil (parsed : Parsed) : parsed.preceded [] = parsed := by
  cases parsed <;> rfl

theorem Parsed.preceded_preceded (front more : List Switch) (parsed : Parsed) :
    (parsed.preceded more).preceded front = parsed.preceded (front ++ more) := by
  cases parsed with
  | request request => simp [preceded]
  | _ => rfl

theorem Progress.turned_preceded (front : List Switch) (p : Progress) (switches : List Switch)
    (left : Option Text) :
    (p.preceded front).turned switches left = (p.turned switches left).preceded front := by
  simp [turned, preceded]

theorem follow_preceded (scope : Scope) (front : List Switch) (found : List (Text × Token))
    (p : Progress) :
    follow scope found (p.preceded front) =
      (follow scope found p).map (Progress.preceded front) := by
  have hawaits (q : Progress) : (q.preceded front).awaits = q.awaits := rfl
  fun_induction follow scope found p with
  | case1 p => rfl
  | case2 argument rest p ih => exact ih
  | case3 argument s long attached rest p reason he => simp only [follow, he, Except.map]
  | case4 argument s long attached rest p switches left he hhelp =>
      simp only [follow, he, if_pos hhelp, Except.map]
  | case5 argument s long attached rest p switches left he hhelp ih =>
      simp only [follow, he, if_neg hhelp, Progress.turned_preceded]
      exact ih
  | case6 argument rest p ha ih =>
      rw [follow, hawaits, if_pos ha]
      exact ih
  | case7 argument rest p ha ih =>
      rw [follow, hawaits, if_neg ha]
      exact ih
  | case8 argument divider rest p ha ih =>
      rw [follow, hawaits, if_pos ha]
      exact ih
  | case9 argument divider rest p ha ih =>
      rw [follow, hawaits, if_neg ha]
      exact ih
  | case10 argument rest p hd ha ih =>
      rw [follow.eq_6 _ _ _ _ hd, hawaits, if_pos ha]
      exact ih
  | case11 argument rest p hd ha ih =>
      rw [follow.eq_6 _ _ _ _ hd, hawaits, if_neg ha]
      exact ih

theorem finished_preceded (front : List Switch) (extras : List Text) (parsed : Parsed) :
    finished extras (parsed.preceded front) = (finished extras parsed).preceded front := by
  unfold finished
  split <;> rfl

/-! ### Tokens -/

/-- An argument that is a switch of a command, spelled in one of its two ways. -/
def Spells (verb : Verb) (argument : Text) (s : Switch) : Prop :=
  s ∈ verb.switches ∧ (argument = s.shortName ∨ argument = s.longName)

theorem tokens_cons {scope : Scope} {argument : Text} {found : Token}
    (hd : argument ≠ text "--") (ht : token scope argument = .ok found) (rest : List Text) :
    tokens scope (argument :: rest) = (tokens scope rest).map ((argument, found) :: ·) := by
  rw [tokens, if_neg hd, ht]

theorem map_fst_of_tokens {scope : Scope} {arguments : List Text} {found : List (Text × Token)}
    (h : tokens scope arguments = .ok found) : found.map (·.1) = arguments := by
  induction arguments generalizing found with
  | nil =>
      cases h
      rfl
  | cons argument rest ih =>
      by_cases hd : argument = text "--"
      · rw [tokens, if_pos hd] at h
        cases h
        rw [List.map_cons, List.map_map]
        exact congrArg (argument :: ·) (List.map_id rest)
      · rw [tokens, if_neg hd] at h
        cases ht : token scope argument with
        | error reason => simp [ht] at h
        | ok first =>
            rw [ht] at h
            cases hr : tokens scope rest with
            | error reason => simp [hr, Except.map] at h
            | ok more =>
                rw [hr] at h
                cases h
                rw [List.map_cons, ih hr]

theorem token_shortName {verb : Verb} {s : Switch} (hs : s ∈ verb.switches) :
    token (.inside verb) s.shortName = .ok (.switch s false none) := by
  cases verb <;> fin_cases hs <;> rfl

theorem token_longName {verb : Verb} {s : Switch} (hs : s ∈ verb.switches) :
    token (.inside verb) s.longName = .ok (.switch s true none) := by
  cases verb <;> fin_cases hs <;> rfl

section Spells

variable {verb : Verb} {argument : Text} {s : Switch} (h : Spells verb argument s)

include h

theorem Spells.ne_divider : argument ≠ text "--" := by
  rcases h.2 with rfl | rfl <;> cases s <;> decide

/-- In front of the command it may be unknown, but it is never in doubt. -/
theorem Spells.token_main : ∃ found, token .main argument = .ok found := by
  rcases h.2 with rfl | rfl <;> cases s <;> exact ⟨_, rfl⟩

theorem Spells.token_inside :
    ∃ long, token (.inside verb) argument = .ok (.switch s long none) := by
  rcases h.2 with rfl | rfl
  · exact ⟨false, token_shortName h.1⟩
  · exact ⟨true, token_longName h.1⟩

end Spells

/-! ### The whole command line -/

/-- Arguments behind a command are read for that command. Reading them as if they stood in front
of it only tells whether they can be told apart. -/
theorem parse_name_cons (verb : Verb) (rest : List Text) :
    parse (verb.name :: rest) =
      match tokens .main rest with
      | .error reason => .refused .main reason
      | .ok _ => parseVerb verb rest [] := by
  have hd : verb.name ≠ text "--" := by cases verb <;> decide
  have ht : token .main verb.name = .ok .operand := by cases verb <;> rfl
  have hv := Verb.ofName?_name verb
  rw [parse, tokens_cons hd ht]
  cases hr : tokens .main rest with
  | error reason => rfl
  | ok found =>
      have hrest := map_fst_of_tokens hr
      simp only [Except.map, parseMain.eq_def, hv, hrest]

theorem parseVerb_cons {verb : Verb} {argument : Text} {s : Switch} (h : Spells verb argument s)
    (hs : s ≠ .help) (rest extras : List Text) :
    parseVerb verb (argument :: rest) extras = (parseVerb verb rest extras).preceded [s] := by
  obtain ⟨long, ht⟩ := h.token_inside
  unfold parseVerb
  rw [tokens_cons h.ne_divider ht]
  cases tokens (.inside verb) rest with
  | error reason => rfl
  | ok found =>
      let start : Progress := ⟨[], none, verb.operand?.isSome, []⟩
      have hfollow : follow (.inside verb) ((argument, .switch s long none) :: found) start =
          (follow (.inside verb) found start).map (Progress.preceded [s]) := by
        have hhelp : Switch.help ∉ [s] := by simpa using Ne.symm hs
        simp only [follow, effect, if_neg hhelp]
        exact follow_preceded _ [s] found start
      simp only [Except.map]
      rw [hfollow]
      cases hf : follow (.inside verb) found start with
      | error stop => cases stop <;> rfl
      | ok p =>
          exact finished_preceded [s] (extras ++ p.extras)
            (.request ⟨verb, p.switches, p.operand⟩)

theorem parse_name_switch {verb : Verb} {argument : Text} {s : Switch}
    (h : Spells verb argument s) (hs : s ≠ .help) (rest : List Text) :
    parse (verb.name :: argument :: rest) = (parse (verb.name :: rest)).preceded [s] := by
  obtain ⟨found, ht⟩ := h.token_main
  rw [parse_name_cons, parse_name_cons, tokens_cons h.ne_divider ht]
  cases tokens .main rest with
  | error reason => rfl
  | ok more => exact parseVerb_cons h hs rest []

theorem parse_name_switches {verb : Verb} {arguments : List Text} {switches : List Switch}
    (h : List.Forall₂ (Spells verb) arguments switches) (hs : .help ∉ switches)
    (rest : List Text) :
    parse (verb.name :: (arguments ++ rest)) = (parse (verb.name :: rest)).preceded switches := by
  induction h with
  | nil => exact (Parsed.preceded_nil _).symm
  | cons hspells _ ih =>
      rw [List.mem_cons, not_or] at hs
      rw [List.cons_append, parse_name_switch hspells (Ne.symm hs.1), ih hs.2,
        Parsed.preceded_preceded, List.singleton_append]

theorem verb_of_parse_name {verb : Verb} {rest : List Text} {request : Request}
    (h : parse (verb.name :: rest) = .request request) : request.verb = verb := by
  rw [parse_name_cons] at h
  cases hm : tokens .main rest with
  | error reason => simp [hm] at h
  | ok found =>
      rw [hm] at h
      simp only [parseVerb] at h
      cases ht : tokens (.inside verb) rest with
      | error reason => simp [ht] at h
      | ok inside =>
          rw [ht] at h
          cases hf : follow (.inside verb) inside ⟨[], none, verb.operand?.isSome, []⟩ with
          | error stop => cases stop <;> simp [hf, Stop.parsed] at h
          | ok p =>
              simp only [hf, finished] at h
              split at h
              · cases h
                rfl
              · cases h

end RipWire.CommandLine
