import RoleAccess.Proofs.Decision.Checks
import RoleAccess.Proofs.Explanation.Agreement
import RoleAccess.Proofs.Roster.Inheritance

namespace RoleAccess.Session

-- The session answers a role that asks by the token of a check as the role's tokens settle it.
def Honours (s : Session) (role : RoleId) (resource : String) (check : Check) (action : String)
    (passed : Prop) (token : String) : Prop :=
  ∃ tokens granted, (s.run (.tokens role resource)).answer = .ok (.texts tokens) ∧
    (s.run (.can role (.ofValue (.text token)) resource)).answer = .ok (.truth granted) ∧
    check.Settles tokens action passed granted

theorem honours_token (s : Session) (role : RoleId) (resource : String) {action : String}
    (hqualifier : Permission.qualifierSeparator ∉ action.toList)
    (hresult : Permission.resultSeparator ∉ action.toList) (check : Check) {passed : Bool}
    {P : Prop} (hpassed : passed = true ↔ P) :
    s.Honours role resource check action P (check.token action passed) := by
  have hcan := s.roster.can_singleton role (check.token action passed) resource
  have hsettles := Check.settles_grants (s.roster.resolve role resource) hqualifier hresult
    check passed
  rw [hpassed] at hsettles
  refine ⟨s.roster.resolve role resource, _, rfl, run_can_text s role _ resource, ?_⟩
  rwa [hcan]

-- A request with a check of ownership, of membership or of the host's own is answered as the check
-- and the tokens of the role settle it. The host's check is made once, and what it comes to is in
-- the token.
theorem can_honours_checks (s : Session) (role : RoleId) (resource action : String)
    (hqualifier : Permission.qualifierSeparator ∉ action.toList)
    (hresult : Permission.resultSeparator ∉ action.toList) :
    (∀ actor owner : Value,
      s.Honours role resource .own action (actor.kind = owner.kind ∧ actor.equal owner = true)
        (Check.ownToken action actor owner)) ∧
    (∀ (actor members : Value) (items : List Value), members.elements? = some items →
      ∃ token, Check.groupToken action actor members = .ok token ∧
        s.Honours role resource .group action
          (∃ m ∈ items, actor.kind = m.kind ∧ actor.equal m = true) token) ∧
    ∀ (m : Type → Type) [Monad m] [LawfulMonad m] (validator : m Value),
      ∃ token : Value → String, Check.valToken action validator = token <$> validator ∧
        ∀ verdict, s.Honours role resource .val action (verdict.truthy = true)
          (token verdict) := by
  refine ⟨?_, ?_, ?_⟩
  · intro actor owner
    exact s.honours_token role resource hqualifier hresult .own (Check.sameId_iff actor owner)
  · intro actor members items hitems
    refine ⟨Check.group.token action (Check.isMember actor items), ?_, ?_⟩
    · rw [Check.groupToken, hitems]
    · exact s.honours_token role resource hqualifier hresult .group
        (Check.isMember_iff actor items)
  · intro m _ _ validator
    refine ⟨fun verdict => Check.val.token action verdict.truthy, ?_, ?_⟩
    · rw [Check.valToken, bind_pure_comp]
    · exact fun verdict => s.honours_token role resource hqualifier hresult .val .rfl

-- The lead inherits a grant that is qualified by ownership and holds another one without a check.
def circling : Session := ⟨.default, .circle⟩

theorem can_honours_checks_circling :
    (circling.run (.can (.named "lead")
      (.ofValue (.text (Check.ownToken "edit" (.text "ann") (.text "ann")))) "posts")).answer =
        .ok (.truth true) ∧
    (∃ token, Check.groupToken "edit" (.text "ann") (.tuple [.text "ann"]) = .ok token ∧
      (circling.run (.can (.named "lead") (.ofValue (.text token)) "posts")).answer =
        .ok (.truth false)) ∧
    ∃ token : Value → String, Check.valToken "publish" (some .none) = some (token .none) ∧
      (circling.run (.can (.named "lead") (.ofValue (.text (token .none))) "posts")).answer =
        .ok (.truth true) := by
  have hwildcard : Permission.wildcard ∉ circling.roster.resolve (.named "lead") "posts" := by
    decide +kernel
  have hedit : "edit" ∉ circling.roster.resolve (.named "lead") "posts" := by decide +kernel
  obtain ⟨hown, hgroup, _⟩ :=
    can_honours_checks circling (.named "lead") "posts" "edit" (by decide) (by decide)
  obtain ⟨_, _, hval⟩ :=
    can_honours_checks circling (.named "lead") "posts" "publish" (by decide) (by decide)
  refine ⟨?_, ?_, ?_⟩
  · obtain ⟨_, granted, ⟨⟩, hanswer, hsettles⟩ := hown (.text "ann") (.text "ann")
    have hgranted : granted = true := by
      refine (hsettles.qualified hwildcard hedit).mpr ⟨⟨rfl, by decide⟩, "edit:own", ?_⟩
      decide +kernel
    rw [hanswer, hgranted]
  · obtain ⟨token, htoken, _, granted, ⟨⟩, hanswer, hsettles⟩ :=
      hgroup (.text "ann") (.tuple [.text "ann"]) [.text "ann"] rfl
    -- The actor is a member, but no grant is qualified by membership.
    have hgranted : granted = false := by
      rw [Bool.eq_false_iff, ne_eq, hsettles.qualified hwildcard hedit, not_and]
      intro _
      decide +kernel
    exact ⟨token, htoken, by rw [hanswer, hgranted]⟩
  · obtain ⟨token, htoken, htokens⟩ := hval Option (some .none)
    obtain ⟨_, granted, ⟨⟩, hanswer, hsettles⟩ := htokens .none
    have hgranted := hsettles.general hwildcard (by decide +kernel)
    exact ⟨token, htoken, by rw [hanswer, hgranted]⟩

end RoleAccess.Session
