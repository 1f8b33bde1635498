import RoleAccess.Proofs.Decision.Outcome
import RoleAccess.Proofs.Explanation.Agreement

namespace RoleAccess

theorem grants_token {p : Permission} (h : p.Legible) (tokens : List String) :
    grants tokens p.token = (verdict tokens p).granting := by
  rw [grants, h.parse_token]

namespace Roster

theorem can_token (roster : Roster) (id : RoleId) {p : Permission} (h : p.Legible)
    (resource : String) :
    roster.can id [p.token] resource = (verdict (roster.resolve id resource) p).granting := by
  rw [can_singleton, grants_token h]

theorem can_withResult (roster : Roster) (id : RoleId) (token : String) (result : Option String)
    (resource : String) :
    roster.can id [((Permission.parse token).withResult result).token] resource =
      (verdict (roster.resolve id resource)
        ((Permission.parse token).withResult result)).granting :=
  roster.can_token id ((Permission.legible_parse token).withResult result) resource

theorem can_withoutResult (roster : Roster) (id : RoleId) (token resource : String) :
    roster.can id [(Permission.parse token).withoutResult.token] resource =
      roster.has id token resource :=
  roster.can_withResult id token none resource

theorem has_of_can_withResult {roster : Roster} {id : RoleId} {token resource : String}
    {result : Option String}
    (h : roster.can id [((Permission.parse token).withResult result).token] resource = true) :
    roster.has id token resource = true := by
  rw [can_withResult] at h
  -- The pattern is the same, whatever the result was.
  have hpattern := granting_withoutResult_of_granting h
  exact hpattern

theorem can_withResult_true (roster : Roster) (id : RoleId) (token resource : String) :
    roster.can id
      [((Permission.parse token).withResult (Permission.outcome true)).token] resource =
        roster.has id token resource := by
  have hpassed := (Permission.parse token).not_failed_withResult_true
  rw [can_withResult, granting_eq_of_not_failed hpassed]
  rfl

-- An unknown role has no tokens, so it does not even get as far as a failed check.
theorem reason_explain_eq_ownershipCheckFailed_iff (roster : Roster) (id : RoleId)
    (token resource : String) :
    (roster.explain id token resource).reason = .ownershipCheckFailed ↔
      roster.has id token resource = true ∧ roster.can id [token] resource = false := by
  have hverdict := verdict_eq_ownershipCheckFailed_iff (roster.resolve id resource)
    (Permission.parse token)
  have hcan := roster.can_token id (Permission.legible_parse token) resource
  rw [Permission.token_parse] at hcan
  rw [hcan, has, grantsPattern, ← hverdict, explain, explainAs]
  cases hknown : roster.contains id with
  | true => simp
  | false => simp [resolve_of_not_contains hknown, verdict]

end Roster

namespace Session

theorem run_explain_text (s : Session) (id : RoleId) (token resource : String) :
    (s.run (.explain id (.ofValue (.text token)) resource)).answer =
      .ok (.explanation (s.roster.explain id token resource)) := rfl

-- What is said of one token when it is asked for as a pattern, as a request and with a reason,
-- and what is said of it with another result in the place of its own.
structure Concur (s : Session) (role : RoleId) (resource token : String) (held granted : Bool)
    (e : Explanation) : Prop where
  pattern : (s.run (.can role
    (.ofValue (.text (Permission.parse token).withoutResult.token)) resource)).answer =
      .ok (.truth held)
  held_of_granted : granted = true → held = true
  failed_iff : held = true ∧ granted = false ↔ e.reason = .ownershipCheckFailed
  remedy : e.reason = .ownershipCheckFailed → (s.run (.can role (.ofValue (.text
    ((Permission.parse token).withResult (Permission.outcome true)).token)) resource)).answer =
      .ok (.truth true)
  noRemedy : e.reason.granting = false → e.reason ≠ .ownershipCheckFailed →
    ∀ result, (s.run (.can role (.ofValue (.text
      ((Permission.parse token).withResult result).token)) resource)).answer = .ok (.truth false)

-- Only where the pattern is held and the request refused is the result to blame, and nowhere else
-- would another one help.
theorem has_concurs_with_can (s : Session) (role : RoleId) (token resource : String) :
    ∃ held granted e, (s.run (.has role token resource)).answer = .ok (.truth held) ∧
      (s.run (.can role (.ofValue (.text token)) resource)).answer = .ok (.truth granted) ∧
      (s.run (.explain role (.ofValue (.text token)) resource)).answer = .ok (.explanation e) ∧
      s.Concur role resource token held granted e := by
  have hfailed := s.roster.reason_explain_eq_ownershipCheckFailed_iff role token resource
  have hgranted := s.roster.granted_explain_eq_can role token resource
  rw [Roster.granted_explain] at hgranted
  refine ⟨_, _, _, rfl, run_can_text s role token resource,
    run_explain_text s role token resource, ?_, ?_, hfailed.symm, ?_, ?_⟩
  · rw [run_can_text, Roster.can_withoutResult]
  · intro hcan
    have htoken : ((Permission.parse token).withResult (Permission.parse token).result).token =
        token := Permission.token_parse token
    rw [← htoken] at hcan
    exact Roster.has_of_can_withResult hcan
  · intro hreason
    rw [run_can_text, Roster.can_withResult_true, (hfailed.mp hreason).1]
  · intro hdenied hreason result
    have hpattern : s.roster.has role token resource ≠ true := by
      intro hheld
      -- A pattern that is held would make the denial a failed check.
      rw [hgranted] at hdenied
      exact hreason (hfailed.mpr ⟨hheld, hdenied⟩)
    rw [run_can_text, Bool.eq_false_iff.mpr (mt Roster.has_of_can_withResult hpattern)]

end Session

end RoleAccess
