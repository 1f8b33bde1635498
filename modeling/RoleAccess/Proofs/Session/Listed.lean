import RoleAccess.Proofs.Decision.Outcome
import RoleAccess.Proofs.Decision.Ruling
import RoleAccess.Proofs.Explanation.Agreement
import RoleAccess.Proofs.Roster.Preorder

namespace RoleAccess

variable {tokens : List String} {t : String}

-- A token has its own form, so if no other rule comes first it matches itself.
theorem grantsPattern_of_mem (h : t ∈ tokens) : grantsPattern tokens t = true := by
  have hform : HasForm tokens (Permission.parse t) := ⟨t, h, rfl, rfl⟩
  rw [grantsPattern, granting_withoutResult_iff]
  exact .inr (.inr hform)

theorem grants_of_mem (h : t ∈ tokens) (hpasses : (Permission.parse t).Passes) :
    grants tokens t = true := by
  have hpassed : ¬ (Permission.parse t).Failed := by
    rw [Permission.failed_iff_not_passes, not_not]
    exact hpasses
  rw [grants, granting_eq_of_not_failed hpassed]
  exact grantsPattern_of_mem h

namespace Roster

variable {roster : Roster} {a b : RoleId} {resource : String}

theorem directTokens_subset_resolve (h : roster.lineage.Reaches a b) (resource : String) :
    roster.directTokens b resource ⊆ roster.resolve a resource :=
  fun t ht => (roster.mem_resolve_iff a resource t).mpr ⟨b, h, ht⟩

theorem has_of_mem_directTokens (h : b ∈ roster.ancestors a)
    (ht : t ∈ roster.directTokens b resource) : roster.has a t resource = true := by
  obtain ⟨hinherits, _⟩ := (roster.mem_ancestors_iff a b).mp h
  obtain ⟨_, _, hreaches⟩ := (inheritsFrom_iff _ _ _).mp hinherits
  exact grantsPattern_of_mem (directTokens_subset_resolve hreaches resource ht)

end Roster

namespace Session

-- What is listed for a role is granted to it, and so is what is given to those above it. A token
-- may carry an outcome of its own, and asking for it is asking with that outcome.
theorem listed_tokens_granted (s : Session) (role : RoleId) (resource : String) :
    (∃ listed, (s.run (.tokens role resource)).answer = .ok (.texts listed) ∧
      ∀ t ∈ listed,
        (s.run (.has role t resource)).answer = .ok (.truth true) ∧
        ((Permission.parse t).Passes →
          (s.run (.can role (.ofValue (.text t)) resource)).answer = .ok (.truth true))) ∧
    ∃ above, (s.run (.ancestors role)).answer = .ok (.roles above) ∧
      ∀ b ∈ above, ∃ given, (s.run (.directTokens b resource)).answer = .ok (.texts given) ∧
        ∀ t ∈ given, (s.run (.has role t resource)).answer = .ok (.truth true) := by
  have hrun : ∀ t, (s.run (.has role t resource)).answer =
      .ok (.truth (s.roster.has role t resource)) := fun _ => rfl
  refine ⟨⟨_, rfl, fun t ht => ⟨?_, fun hpasses => ?_⟩⟩, _, rfl, fun b hb => ⟨_, rfl, ?_⟩⟩
  · rw [hrun, Roster.has, grantsPattern_of_mem ht]
  · rw [run_can_text, Roster.can_singleton, grants_of_mem ht hpasses]
  · intro t ht
    rw [hrun, Roster.has_of_mem_directTokens hb ht]

-- Grants that carry outcomes, one of them without any action.
def motley : Session :=
  ⟨.default, ⟨⟨[(.named "lead", ⟨.text "lead",
      ⟨none, none, ⟨[("posts", ["edit:own|no", "*:x|true"])]⟩, some ["staff", "ghost"]⟩⟩),
    (.named "staff", ⟨.text "staff",
      ⟨none, none, ⟨[("posts", ["", "edit", ":|:"])]⟩, some ["lead"]⟩⟩)]⟩⟩⟩

theorem listed_tokens_granted_motley :
    (motley.run (.has (.named "lead") "edit:own|no" "posts")).answer = .ok (.truth true) ∧
    (motley.run (.can (.named "staff") (.ofValue (.text "*:x|true")) "posts")).answer =
      .ok (.truth true) ∧
    (motley.run (.has (.named "lead") ":|:" "posts")).answer = .ok (.truth true) := by
  obtain ⟨⟨_, ⟨⟩, hlead⟩, _, ⟨⟩, habove⟩ := listed_tokens_granted motley (.named "lead") "posts"
  obtain ⟨⟨_, ⟨⟩, hstaff⟩, _⟩ := listed_tokens_granted motley (.named "staff") "posts"
  obtain ⟨_, ⟨⟩, hgiven⟩ := habove (.named "staff") (by decide +kernel)
  obtain ⟨hheld, _⟩ := hlead "edit:own|no" (by decide +kernel)
  obtain ⟨_, hgranted⟩ := hstaff "*:x|true" (by decide +kernel)
  exact ⟨hheld, hgranted (by decide +kernel), hgiven ":|:" (by decide +kernel)⟩

end Session

end RoleAccess
