import RoleAccess.Decision
import Mathlib.Logic.Basic
import Mathlib.Tactic.SplitIfs

namespace RoleAccess

namespace Permission

-- The request carries the outcome of a check that did not pass.
def Failed (p : Permission) : Prop := ∃ r, p.result = some r ∧ r ≠ outcome true

theorem failed_iff (p : Permission) :
    p.Failed ↔ p.hasResult = true ∧ p.resultPassed = false := by
  unfold Failed hasResult resultPassed
  cases p.result <;> simp

instance (p : Permission) : Decidable p.Failed := decidable_of_iff _ p.failed_iff.symm

end Permission

variable {ts us : List String} {request : Permission}

def HasForm (tokens : List String) (request : Permission) : Prop :=
  ∃ t ∈ tokens, (Permission.parse t).action = request.action ∧
    (Permission.parse t).qualifier = request.qualifier

def HasQualified (tokens : List String) (request : Permission) : Prop :=
  ∃ t ∈ tokens, (Permission.parse t).action = request.action ∧
    (Permission.parse t).isQualified = true

instance : Decidable (HasForm ts request) :=
  inferInstanceAs (Decidable (∃ t ∈ ts, _))

instance : Decidable (HasQualified ts request) :=
  inferInstanceAs (Decidable (∃ t ∈ ts, _))

theorem HasForm.mono (hsub : ts ⊆ us) (h : HasForm ts request) : HasForm us request := by
  obtain ⟨t, ht, hform⟩ := h
  exact ⟨t, hsub ht, hform⟩

theorem HasQualified.mono (hsub : ts ⊆ us) (h : HasQualified ts request) :
    HasQualified us request := by
  obtain ⟨t, ht, hform⟩ := h
  exact ⟨t, hsub ht, hform⟩

theorem hasForm_cons (t : String) (ts : List String) (request : Permission) :
    HasForm (t :: ts) request ↔
      ((Permission.parse t).action = request.action ∧
        (Permission.parse t).qualifier = request.qualifier) ∨ HasForm ts request := by
  simp [HasForm]

theorem hasQualified_cons (t : String) (ts : List String) (request : Permission) :
    HasQualified (t :: ts) request ↔
      ((Permission.parse t).action = request.action ∧
        (Permission.parse t).isQualified = true) ∨ HasQualified ts request := by
  simp [HasQualified]

-- Where the search stops and what it has noted by then makes no difference in the end.
theorem fit_eq (request : Permission) (tokens : List String) :
    fit request tokens =
      if HasForm tokens request then .exact
      else if ¬ request.isQualified ∧ HasQualified tokens request then .otherQualifier
      else .none := by
  induction tokens with
  | nil => simp [fit, HasForm, HasQualified]
  | cons t ts ih =>
      simp only [fit, ih, hasForm_cons, hasQualified_cons]
      by_cases hrest : HasForm ts request
      · simp [hrest]
      · by_cases hq : ¬ request.isQualified ∧ HasQualified ts request
        · simp [hrest, hq]
        · grind

-- The rules in the order of their weight. Each asks only which tokens there are.
theorem verdict_eq (tokens : List String) (request : Permission) :
    verdict tokens request =
      if tokens = [] then .resourceNotAllowed
      else if Permission.wildcard ∈ tokens then
        if ¬ request.isQualified then .wildcardPermission
        else if request.Failed then .ownershipCheckFailed
        else .wildcardWithOwnership
      else if request.isQualified ∧ request.action ∈ tokens then .genericPermissionWithOwnership
      else if HasForm tokens request then
        if request.Failed then .ownershipCheckFailed
        else if request.hasResult then .permissionWithOwnership
        else if request.isQualified then .permissionWithOwnershipDefault
        else .permissionGranted
      else if ¬ request.isQualified ∧ HasQualified tokens request then .requiresOwnership
      else .actionNotAllowed := by
  unfold verdict
  rw [fit_eq]
  simp only [Permission.failed_iff]
  by_cases hform : HasForm tokens request
  · simp only [hform, if_true]
    cases request.hasResult <;> cases request.resultPassed <;> simp
  · by_cases hq : ¬ request.isQualified ∧ HasQualified tokens request <;>
      simp only [hform, hq, if_false] <;>
      cases request.hasResult <;> cases request.resultPassed <;> simp

theorem verdict_ne_roleNotFound (tokens : List String) (request : Permission) :
    verdict tokens request ≠ .roleNotFound := by
  rw [verdict_eq]
  split_ifs <;> exact Reason.noConfusion

-- Neither the order of the tokens nor their number of times matters.
theorem verdict_congr (h : ∀ t, t ∈ ts ↔ t ∈ us) (request : Permission) :
    verdict ts request = verdict us request := by
  have hsub : ts ⊆ us := fun t => (h t).mp
  have hsup : us ⊆ ts := fun t => (h t).mpr
  have hnil : ts = [] ↔ us = [] := by
    simp only [List.eq_nil_iff_forall_not_mem, h]
  have hform : HasForm ts request ↔ HasForm us request := ⟨.mono hsub, .mono hsup⟩
  have hqualified : HasQualified ts request ↔ HasQualified us request := ⟨.mono hsub, .mono hsup⟩
  simp only [verdict_eq, h, hnil, hform, hqualified]

-- When access is given: by the wildcard, by the bare action, or by a token of the same form.
theorem granting_verdict_iff (tokens : List String) (request : Permission) :
    (verdict tokens request).granting = true ↔
      if Permission.wildcard ∈ tokens then ¬ (request.isQualified ∧ request.Failed)
      else (request.isQualified ∧ request.action ∈ tokens) ∨
        (HasForm tokens request ∧ ¬ request.Failed) := by
  rw [verdict_eq]
  by_cases hnil : tokens = []
  · simp [hnil, HasForm, Reason.granting]
  · simp only [hnil, if_false]
    split_ifs <;> simp_all [Reason.granting]

-- More tokens keep what was granted, with one exception: under a wildcard that comes in, a
-- failed check counts even where a bare action did without the check before.
theorem granting_of_subset_iff (hsub : ts ⊆ us) (request : Permission)
    (hgranted : (verdict ts request).granting = true) :
    (verdict us request).granting = true ↔
      ¬ (Permission.wildcard ∈ us ∧ Permission.wildcard ∉ ts ∧
        request.isQualified ∧ request.Failed) := by
  rw [granting_verdict_iff] at hgranted ⊢
  by_cases hus : Permission.wildcard ∈ us
  · by_cases hts : Permission.wildcard ∈ ts
    · simp_all
    · simp [hus, hts]
  · have hts : Permission.wildcard ∉ ts := fun h => hus (hsub h)
    simp only [hus, hts, if_false, false_and, not_false_eq_true, iff_true] at hgranted ⊢
    rcases hgranted with ⟨hq, haction⟩ | ⟨hform, hpassed⟩
    · exact .inl ⟨hq, hsub haction⟩
    · exact .inr ⟨hform.mono hsub, hpassed⟩

end RoleAccess
