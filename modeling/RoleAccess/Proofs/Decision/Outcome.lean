import RoleAccess.Proofs.Permission.Check

namespace RoleAccess

variable {tokens : List String} {request : Permission}

namespace Permission

-- The same grant asked for with another outcome, or with none.
def withResult (p : Permission) (result : Option String) : Permission := { p with result }

theorem not_failed_withoutResult (p : Permission) : ¬ p.withoutResult.Failed := by
  rintro ⟨r, hr, _⟩
  cases hr

theorem not_failed_withResult_true (p : Permission) : ¬ (p.withResult (outcome true)).Failed := by
  rintro ⟨r, hr, hne⟩
  exact hne (Option.some_inj.mp hr).symm

theorem Legible.withResult {p : Permission} (h : p.Legible) (result : Option String) :
    (p.withResult result).Legible :=
  ⟨h.action_qualifier, h.action_result, h.qualifier_result⟩

end Permission

-- The pattern of a request is granted where the request would be if its check were passed.
theorem granting_withoutResult_iff (tokens : List String) (request : Permission) :
    (verdict tokens request.withoutResult).granting = true ↔
      Permission.wildcard ∈ tokens ∨ (request.isQualified ∧ request.action ∈ tokens) ∨
        HasForm tokens request := by
  have hform : HasForm tokens request.withoutResult ↔ HasForm tokens request := .rfl
  have hpassed := request.not_failed_withoutResult
  rw [granting_verdict_iff, hform]
  by_cases hwildcard : Permission.wildcard ∈ tokens
  · simp [hwildcard, hpassed]
  · simp only [hwildcard, if_false, false_or, hpassed, not_false_eq_true, and_true]
    rfl

theorem granting_eq_of_not_failed (h : ¬ request.Failed) (tokens : List String) :
    (verdict tokens request).granting = (verdict tokens request.withoutResult).granting := by
  rw [Bool.eq_iff_iff, granting_withoutResult_iff, granting_verdict_iff]
  by_cases hwildcard : Permission.wildcard ∈ tokens <;> simp [hwildcard, h]

theorem granting_withoutResult_of_granting (h : (verdict tokens request).granting = true) :
    (verdict tokens request.withoutResult).granting = true := by
  rw [granting_withoutResult_iff]
  rw [granting_verdict_iff] at h
  by_cases hwildcard : Permission.wildcard ∈ tokens
  · exact .inl hwildcard
  · rw [if_neg hwildcard] at h
    exact .inr (h.imp_right And.left)

-- Only an outcome stands between a request that is refused and its pattern that is granted.
theorem verdict_eq_ownershipCheckFailed_iff (tokens : List String) (request : Permission) :
    verdict tokens request = .ownershipCheckFailed ↔
      (verdict tokens request.withoutResult).granting = true ∧
        (verdict tokens request).granting = false := by
  rw [granting_withoutResult_iff, verdict_eq]
  by_cases hnil : tokens = []
  · simp [hnil, HasForm]
  · simp only [hnil, if_false]
    split_ifs <;> simp_all [Reason.granting]

-- The reasons that rest on a check that was passed, or on there being none.
theorem verdict_of_failed (h : request.Failed) (tokens : List String) :
    verdict tokens request ∉ [.wildcardWithOwnership, .permissionWithOwnership,
      .permissionWithOwnershipDefault, .permissionGranted] := by
  have hresult := ((Permission.failed_iff request).mp h).1
  rw [verdict_eq]
  simp only [h, hresult, if_true]
  split_ifs <;> simp

namespace Check

-- A token that carries a check says how it came out. It says that the check was passed only if
-- it was, and tokens that hold for a role are not taken in by one that was not.
structure Reports (action : String) (passed : Prop) (token : String) : Prop where
  result : ∃ r, (Permission.parse token).result = some r ∧
    (r = Permission.outcome true ↔ passed ∧ Permission.resultSeparator ∉ action.toList)
  refused : ¬ passed → ∀ tokens, verdict tokens (Permission.parse token) ∉
    [.wildcardWithOwnership, .permissionWithOwnership, .permissionWithOwnershipDefault,
      .permissionGranted]

theorem reports_token {action : String} {check : Check} {passed : Bool} {condition : Prop}
    (h : passed = true ↔ condition) : Reports action condition (check.token action passed) := by
  have hparse := parse_token_eq_attach check action passed
  have hresult := result_attach check passed (Permission.parse action)
  have hfree : (Permission.parse action).hasResult = false ↔
      Permission.resultSeparator ∉ action.toList := by
    rw [← Permission.hasResult_parse_iff, Bool.not_eq_true]
  rw [h, hfree, ← hparse] at hresult
  refine ⟨hresult, fun hfailed => verdict_of_failed ?_⟩
  rw [hparse, failed_attach_iff, ← Bool.not_eq_true, h]
  exact .inl hfailed

-- An action may bring along any separators. They move the check about in the token, but none of
-- them makes a failed check look passed.
theorem outcome_not_forged (action : String) :
    EachToken action fun _ passed token => Reports action passed token :=
  eachToken fun _ _ _ h => reports_token h

theorem outcome_not_forged_injected :
    Permission.parse (ownToken "edit:own|true" (.text "ann") (.text "bob")) =
      ⟨"edit", some "own", some "true:own|false"⟩ ∧
    verdict ["edit:own"] (Permission.parse (ownToken "edit:own|true" (.text "ann") (.text "bob"))) ∉
      [.wildcardWithOwnership, .permissionWithOwnership, .permissionWithOwnershipDefault,
        .permissionGranted] := by
  have hreports := (outcome_not_forged "edit:own|true").own (.text "ann") (.text "bob")
  exact ⟨by decide +kernel, hreports.refused (by decide) ["edit:own"]⟩

end Check

end RoleAccess
