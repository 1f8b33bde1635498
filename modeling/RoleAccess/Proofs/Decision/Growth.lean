import RoleAccess.Proofs.Decision.Ruling

namespace RoleAccess

variable {tokens more : List String} {request : Permission}

-- Without a wildcard a request whose check failed is granted on the bare action or not at all.
theorem hasGeneral_of_granting (hwildcard : Permission.wildcard ∉ tokens)
    (hfailed : request.Failed) (hgranted : (verdict tokens request).granting = true) :
    HasGeneral tokens request := by
  rw [granting_verdict_iff, if_neg hwildcard] at hgranted
  rcases hgranted with ⟨hqualified, haction⟩ | ⟨_, hpassed⟩
  · exact ⟨request.isQualified_iff.mp hqualified, haction⟩
  · exact absurd hfailed hpassed

-- What takes a grant back is a wildcard that is new: under it the failed check counts, which the
-- bare action did without.
theorem more_tokens_revoke_iff (hsub : tokens ⊆ more)
    (hgranted : (verdict tokens request).granting = true) :
    ((verdict more request).granting = false ↔
      Permission.wildcard ∈ more ∧ Permission.wildcard ∉ tokens ∧
        request.qualifier ≠ none ∧ request.Failed) ∧
    ((verdict more request).granting = false →
      verdict tokens request = .genericPermissionWithOwnership ∧
        verdict more request = .ownershipCheckFailed) := by
  have hrevoked : (verdict more request).granting = false ↔
      Permission.wildcard ∈ more ∧ Permission.wildcard ∉ tokens ∧
        request.qualifier ≠ none ∧ request.Failed := by
    rw [← Bool.not_eq_true, granting_of_subset_iff hsub request hgranted, not_not,
      request.isQualified_iff]
  refine ⟨hrevoked, fun hdenied => ?_⟩
  obtain ⟨hmore, htokens, hqualified, hfailed⟩ := hrevoked.mp hdenied
  have hgeneral := hasGeneral_of_granting htokens hfailed hgranted
  have hpasses : ¬ request.Passes := request.failed_iff_not_passes.mp hfailed
  exact ⟨verdict_of_ruling (.general htokens hgeneral),
    verdict_of_ruling (.wildcardFailed hmore hqualified hpasses)⟩

theorem more_tokens_revoke_iff_reigning :
    ["edit", "edit:own"] ⊆ ["edit:own", "*", "edit"] ∧
    (verdict ["edit", "edit:own"] ⟨"edit", some "own", some "maybe"⟩).granting = true ∧
    (verdict ["edit:own", "*", "edit"] ⟨"edit", some "own", some "maybe"⟩).granting = false := by
  have hsub : ["edit", "edit:own"] ⊆ ["edit:own", "*", "edit"] := by decide
  have hgranted :
      (verdict ["edit", "edit:own"] ⟨"edit", some "own", some "maybe"⟩).granting = true := by
    decide +kernel
  obtain ⟨hrevoked, _⟩ := more_tokens_revoke_iff hsub hgranted
  exact ⟨hsub, hgranted, hrevoked.mpr (by decide)⟩

end RoleAccess
