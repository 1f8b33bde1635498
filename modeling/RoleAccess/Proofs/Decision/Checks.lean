import RoleAccess.Proofs.Decision.Rules
import RoleAccess.Proofs.Permission.Codec

namespace RoleAccess.Check

theorem sameId_iff (a b : Value) :
    a.sameId b = true ↔ a.kind = b.kind ∧ a.equal b = true := by
  simp [Value.sameId]

theorem isMember_iff (actor : Value) (members : List Value) :
    isMember actor members = true ↔
      ∃ m ∈ members, actor.kind = m.kind ∧ actor.equal m = true := by
  simp only [isMember, List.any_eq_true, sameId_iff]

-- What the token of a check is written from.
def request (check : Check) (action : String) (passed : Bool) : Permission :=
  ⟨action, some check.qualifier, some (Permission.outcome passed)⟩

theorem failed_request_iff (check : Check) (action : String) (passed : Bool) :
    (check.request action passed).Failed ↔ passed = false := by
  rw [Permission.failed_iff]
  cases passed <;> simp [request, Permission.hasResult, Permission.resultPassed,
    Permission.outcome]

theorem resultSeparator_not_mem_qualifier (check : Check) :
    Permission.resultSeparator ∉ check.qualifier.toList := by
  cases check <;> decide

theorem parse_token {action : String}
    (hqualifier : Permission.qualifierSeparator ∉ action.toList)
    (hresult : Permission.resultSeparator ∉ action.toList) (check : Check) (passed : Bool) :
    Permission.parse (check.token action passed) = check.request action passed := by
  refine Permission.Legible.parse_token ⟨hqualifier, hresult, ?_⟩
  rintro q ⟨⟩
  exact check.resultSeparator_not_mem_qualifier

-- What the tokens that hold for a role make of a request with a check. Under the wildcard the
-- check decides, a grant of the bare action does without it, and a grant that is qualified by
-- the check needs it passed.
structure Settles (check : Check) (tokens : List String) (action : String) (passed : Prop)
    (granted : Bool) : Prop where
  wildcard : Permission.wildcard ∈ tokens → (granted = true ↔ passed)
  general : Permission.wildcard ∉ tokens → action ∈ tokens → granted = true
  qualified : Permission.wildcard ∉ tokens → action ∉ tokens →
    (granted = true ↔ passed ∧ ∃ t ∈ tokens, (Permission.parse t).action = action ∧
      (Permission.parse t).qualifier = some check.qualifier)

theorem settles_grants (tokens : List String) {action : String}
    (hqualifier : Permission.qualifierSeparator ∉ action.toList)
    (hresult : Permission.resultSeparator ∉ action.toList) (check : Check) (passed : Bool) :
    check.Settles tokens action (passed = true) (grants tokens (check.token action passed)) := by
  have hqualified : (check.request action passed).isQualified = true := rfl
  have hpassed : ¬ (check.request action passed).Failed ↔ passed = true := by
    rw [failed_request_iff, Bool.not_eq_false]
  have hgrants : grants tokens (check.token action passed) =
      (verdict tokens (check.request action passed)).granting := by
    rw [grants, parse_token hqualifier hresult]
  refine ⟨?_, ?_, ?_⟩ <;> rw [hgrants, granting_verdict_iff]
  · intro hwildcard
    rw [if_pos hwildcard, ← hpassed]
    simp only [hqualified, true_and]
  · intro hwildcard haction
    rw [if_neg hwildcard]
    exact .inl ⟨hqualified, haction⟩
  · intro hwildcard haction
    rw [if_neg hwildcard, hpassed]
    constructor
    · rintro (⟨_, hheld⟩ | ⟨hform, hcheck⟩)
      · exact absurd hheld haction
      · exact ⟨hcheck, hform⟩
    · rintro ⟨hcheck, hform⟩
      exact .inr ⟨hform, hcheck⟩

end RoleAccess.Check
