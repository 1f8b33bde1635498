import RoleAccess.Proofs.Decision.Outcome
import RoleAccess.Proofs.Explanation.Agreement

namespace RoleAccess

namespace Check

-- In front of the first `|` of the action there is no `:`. All that is put behind such an action
-- becomes part of a result, the check with its qualifier included.
def Swallows (action : String) : Prop :=
  ∃ front back, action.toList = front ++ Permission.resultSeparator :: back ∧
    Permission.resultSeparator ∉ front ∧ Permission.qualifierSeparator ∉ front

theorem swallows_iff (action : String) :
    Swallows action ↔ (Permission.parse action).hasResult = true ∧
      (Permission.parse action).isQualified = false := by
  rw [← Bool.not_eq_true, Permission.isQualified_parse_iff, Permission.hasResult_parse_iff]
  constructor
  · rintro ⟨front, back, haction, hresult, hqualifier⟩
    rw [haction, Text.cut_append hresult]
    exact ⟨by simp, hqualifier⟩
  · rintro ⟨hresult, hqualifier⟩
    rcases Text.cut_cases Permission.resultSeparator action.toList with
      ⟨hfree, _⟩ | ⟨front, back, hfront, haction, hcut⟩
    · exact absurd hresult hfree
    · rw [hcut] at hqualifier
      exact ⟨front, back, haction, hfront, hqualifier⟩

instance (action : String) : Decidable (Swallows action) :=
  decidable_of_iff _ (swallows_iff action).symm

-- A wildcard looks at an outcome only where there is a qualifier to go with it.
theorem grants_failed_iff {tokens : List String} (h : Permission.wildcard ∈ tokens)
    (check : Check) (action : String) :
    grants tokens (check.token action false) = true ↔ Swallows action := by
  have hfailed : (check.attach false (Permission.parse action)).Failed := by
    rw [failed_attach_iff]
    exact .inl rfl
  rw [grants, parse_token_eq_attach, granting_verdict_iff, if_pos h, isQualified_attach,
    swallows_iff]
  cases (Permission.parse action).isQualified <;>
    cases (Permission.parse action).hasResult <;> simp [hfailed]

end Check

namespace Session

-- Where a wildcard holds, a request whose check has failed is refused, unless its action swallows
-- the check.
theorem wildcard_refuses_failed_checks (s : Session) (role : RoleId) (resource : String)
    (hwildcard : Permission.wildcard ∈ s.roster.resolve role resource) (action : String) :
    Check.EachToken action fun _ passed token => ¬ passed →
      ∃ granted, (s.run (.can role (.ofValue (.text token)) resource)).answer =
          .ok (.truth granted) ∧
        (granted = false ↔ ¬ Check.Swallows action) := by
  refine Check.eachToken fun check passed condition hpassed hfailed => ?_
  have hfalse : passed = false := by rwa [← hpassed, Bool.not_eq_true] at hfailed
  have hcan : s.roster.can role [check.token action false] resource = true ↔
      Check.Swallows action := by
    rw [Roster.can_singleton, Check.grants_failed_iff hwildcard]
  rw [hfalse]
  refine ⟨_, run_can_text s role _ resource, ?_⟩
  rw [← hcan, Bool.not_eq_true]

def reigning : Session :=
  ⟨.default, ⟨⟨[(.named "lead", ⟨.text "lead", ⟨none, none, ⟨[("posts", ["*"])]⟩, none⟩⟩)]⟩⟩⟩

theorem wildcard_refuses_failed_checks_reigning :
    (reigning.run (.can (.named "lead")
      (.ofValue (.text (Check.ownToken "edit" (.text "ann") (.text "bob")))) "posts")).answer =
        .ok (.truth false) := by
  have hwildcard : Permission.wildcard ∈ reigning.roster.resolve (.named "lead") "posts" := by
    decide +kernel
  have htokens := wildcard_refuses_failed_checks reigning (.named "lead") "posts" hwildcard "edit"
  obtain ⟨granted, hanswer, hgranted⟩ := htokens.own (.text "ann") (.text "bob") (by decide)
  rw [hanswer, hgranted.mpr (by decide +kernel)]

-- The check of the owner fails, and the request is granted all the same.
theorem wildcard_grants_swallowed_check :
    Permission.wildcard ∈ reigning.roster.resolve (.named "lead") "posts" ∧
    Value.sameId (.text "ann") (.text "bob") = false ∧
    (reigning.run (.can (.named "lead")
      (.ofValue (.text (Check.ownToken "read|all" (.text "ann") (.text "bob")))) "posts")).answer =
        .ok (.truth true) := by
  have hcan : reigning.roster.can (.named "lead")
      [Check.ownToken "read|all" (.text "ann") (.text "bob")] "posts" = true := by decide +kernel
  refine ⟨by decide +kernel, by decide, ?_⟩
  rw [run_can_text, hcan]

end Session

end RoleAccess
