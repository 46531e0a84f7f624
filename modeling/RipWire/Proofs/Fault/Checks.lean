import Mathlib.Data.List.Forall2

/-!
# Checks in sequence

A constructor is a sequence of checks, of which the first that fails decides
the fault. These lemmas peel one check off its front. The results of a check that
many values pass are related to the values one by one.
-/

namespace RipWire.Checks

variable {Fault Checked Built : Type}

theorem bind_ok_iff {check : Except Fault Checked} {next : Checked → Except Fault Built}
    {built : Built} :
    check >>= next = .ok built ↔ ∃ value, check = .ok value ∧ next value = .ok built := by
  cases check with
  | error fault => simp [bind, Except.bind]
  | ok value => simp [bind, Except.bind]

theorem bind_error_iff {check : Except Fault Checked} {next : Checked → Except Fault Built}
    {fault : Fault} :
    check >>= next = .error fault ↔
      check = .error fault ∨ ∃ value, check = .ok value ∧ next value = .error fault := by
  cases check with
  | error fault => simp [bind, Except.bind]
  | ok value => simp [bind, Except.bind]

theorem bind_congr_ok {check : Except Fault Checked} {next other : Checked → Except Fault Built}
    (h : ∀ value, check = .ok value → next value = other value) :
    check >>= next = check >>= other := by
  cases check with
  | error fault => rfl
  | ok value => exact h value rfl

theorem map_ok_iff {check : Except Fault Checked} {build : Checked → Built} {built : Built} :
    check.map build = .ok built ↔ ∃ value, check = .ok value ∧ build value = built := by
  cases check with
  | error fault => simp [Except.map]
  | ok value => simp [Except.map]

theorem mapError_ok_iff {Other : Type} {check : Except Fault Checked} {rename : Fault → Other}
    {value : Checked} : check.mapError rename = .ok value ↔ check = .ok value := by
  cases check with
  | error fault =>
      constructor <;>
        · intro h
          cases h
  | ok other =>
      constructor <;>
        · intro h
          cases h
          rfl

theorem map_error_iff {check : Except Fault Checked} {build : Checked → Built} {fault : Fault} :
    check.map build = .error fault ↔ check = .error fault := by
  cases check with
  | error fault => simp [Except.map]
  | ok value => simp [Except.map]

theorem mapError_error_iff {Other : Type} {check : Except Fault Checked} {rename : Fault → Other}
    {fault : Other} :
    check.mapError rename = .error fault ↔ ∃ found, check = .error found ∧ rename found = fault := by
  cases check with
  | error found => simp [Except.mapError]
  | ok value => simp [Except.mapError]

/-! ### Lists that are related one by one -/

section Related

variable {Front Middle Back : Type}

theorem exists_forall₂ {R : Front → Back → Prop} {fronts : List Front}
    (h : ∀ front ∈ fronts, ∃ back, R front back) : ∃ backs, List.Forall₂ R fronts backs := by
  induction fronts with
  | nil => exact ⟨[], .nil⟩
  | cons front fronts ih =>
      obtain ⟨⟨back, hback⟩, hmore⟩ := List.forall_mem_cons.mp h
      obtain ⟨backs, hbacks⟩ := ih hmore
      exact ⟨back :: backs, .cons hback hbacks⟩

theorem forall₂_trans {R : Front → Middle → Prop} {S : Middle → Back → Prop}
    {T : Front → Back → Prop} (himp : ∀ front middle back, R front middle → S middle back →
      T front back) {fronts : List Front} {middles : List Middle} {backs : List Back}
    (hr : List.Forall₂ R fronts middles) (hs : List.Forall₂ S middles backs) :
    List.Forall₂ T fronts backs := by
  induction hr generalizing backs with
  | nil =>
      cases hs
      exact .nil
  | cons hfirst _ ih =>
      cases hs with
      | cons hnext hmore => exact .cons (himp _ _ _ hfirst hnext) (ih hmore)

theorem forall_mem_of_forall₂ {R : Front → Back → Prop} {fronts : List Front} {backs : List Back}
    (h : List.Forall₂ R fronts backs) {P : Front → Prop} {Q : Back → Prop}
    (himp : ∀ front back, R front back → P front → Q back) (hp : ∀ front ∈ fronts, P front) :
    ∀ back ∈ backs, Q back := by
  induction h with
  | nil => simp
  | cons hfirst _ ih =>
      obtain ⟨hp, hmore⟩ := List.forall_mem_cons.mp hp
      exact List.forall_mem_cons.mpr ⟨himp _ _ hfirst hp, ih hmore⟩

end Related

/-! ### One check for many values -/

theorem mapM_ok_iff {check : Checked → Except Fault Built} {values : List Checked}
    {results : List Built} :
    values.mapM check = .ok results ↔
      List.Forall₂ (fun value built => check value = .ok built) values results := by
  induction values generalizing results with
  | nil => cases results <;> simp [pure, Except.pure]
  | cons value values ih =>
      rw [List.mapM_cons, bind_ok_iff, List.forall₂_cons_left_iff]
      constructor
      · rintro ⟨built, hb, h⟩
        obtain ⟨rest, hr, h⟩ := bind_ok_iff.mp h
        cases h
        exact ⟨built, rest, hb, ih.mp hr, rfl⟩
      · rintro ⟨built, rest, hb, hr, rfl⟩
        exact ⟨built, hb, bind_ok_iff.mpr ⟨rest, ih.mpr hr, rfl⟩⟩

theorem mapM_congr {Other : Type} {check : Checked → Except Fault Built}
    {recheck : Other → Except Fault Built} {values : List Checked} {others : List Other}
    (h : List.Forall₂ (fun value other => check value = recheck other) values others) :
    values.mapM check = others.mapM recheck := by
  induction h with
  | nil => rfl
  | cons hfirst _ ih => rw [List.mapM_cons, List.mapM_cons, hfirst, ih]

theorem mapM_ok_of_forall {check : Checked → Except Fault Built} {values : List Checked}
    (passes : ∀ value ∈ values, ∃ built, check value = .ok built) :
    ∃ results, values.mapM check = .ok results := by
  obtain ⟨results, hresults⟩ := exists_forall₂ passes
  exact ⟨results, mapM_ok_iff.mpr hresults⟩

theorem mapM_ok_mem {check : Checked → Except Fault Built} {values : List Checked}
    {results : List Built} (passed : values.mapM check = .ok results) {built : Built}
    (hm : built ∈ results) : ∃ value ∈ values, check value = .ok built := by
  have hall := mapM_ok_iff.mp passed
  obtain ⟨k, hk, rfl⟩ := List.mem_iff_getElem.mp hm
  have hlen := hall.length_eq
  exact ⟨values[k], List.getElem_mem _, (List.forall₂_iff_get.mp hall).2 k (by omega) hk⟩

theorem mapM_ok_forall {check : Checked → Except Fault Built} {values : List Checked}
    {results : List Built} (passed : values.mapM check = .ok results) {value : Checked}
    (hm : value ∈ values) : ∃ built ∈ results, check value = .ok built := by
  have hall := mapM_ok_iff.mp passed
  obtain ⟨k, hk, rfl⟩ := List.mem_iff_getElem.mp hm
  have hlen := hall.length_eq
  exact ⟨results[k], List.getElem_mem _, (List.forall₂_iff_get.mp hall).2 k hk (by omega)⟩

/-- The first value that does not pass decides, whatever comes behind it. -/
theorem mapM_error_behind {check : Checked → Except Fault Built} {before : List Checked}
    {value : Checked} (behind : List Checked) {fault : Fault}
    (passed : ∀ other ∈ before, ∃ built, check other = .ok built)
    (failed : check value = .error fault) :
    (before ++ value :: behind).mapM check = .error fault := by
  induction before with
  | nil => rw [List.nil_append, List.mapM_cons, failed]; rfl
  | cons other before ih =>
      obtain ⟨⟨built, hbuilt⟩, hmore⟩ := List.forall_mem_cons.mp passed
      rw [List.cons_append, List.mapM_cons, hbuilt, ih hmore]
      rfl

theorem forall_or_first (P : Checked → Prop) (values : List Checked) :
    (∀ value ∈ values, P value) ∨
      ∃ before value behind, values = before ++ value :: behind ∧
        (∀ other ∈ before, P other) ∧ ¬ P value := by
  induction values with
  | nil => exact .inl (by simp)
  | cons value values ih =>
      by_cases hvalue : P value
      · rcases ih with hall | ⟨before, other, behind, rfl, hbefore, hother⟩
        · exact .inl (List.forall_mem_cons.mpr ⟨hvalue, hall⟩)
        · exact .inr ⟨value :: before, other, behind, rfl,
            List.forall_mem_cons.mpr ⟨hvalue, hbefore⟩, hother⟩
      · exact .inr ⟨[], value, values, rfl, by simp, hvalue⟩

end RipWire.Checks
