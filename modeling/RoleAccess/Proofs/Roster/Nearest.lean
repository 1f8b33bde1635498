import RoleAccess.Proofs.Roster.ResolveAll

namespace RoleAccess.Roster

-- The steps from a role up to the nearest one that is given the token itself.
noncomputable def stepsToToken (roster : Roster) (id : RoleId) (resource token : String) : Nat :=
  roster.lineage.stepsTo id fun a => token ∈ roster.directTokens a resource

theorem pairwise_distance_ancestors (roster : Roster) (id : RoleId) :
    (roster.ancestors id).Pairwise fun a b =>
      roster.lineage.distance id a ≤ roster.lineage.distance id b := by
  unfold ancestors
  split
  · exact (roster.lineage.pairwise_distance_reached id).filter _
  · exact List.Pairwise.nil

theorem idxOf_lt_idxOf_resolve (roster : Roster) (id : RoleId) (resource t u : String) :
    (roster.resolve id resource).idxOf t < (roster.resolve id resource).idxOf u ↔
      roster.lineage.ComesUpFirst id (roster.directTokens · resource) t u :=
  roster.lineage.idxOf_lt_idxOf_collected id (roster.directTokens · resource) t u

-- Nearer roles come first, and so do the tokens that are given nearer by.
theorem nearer_comes_first (roster : Roster) (id : RoleId) :
    (roster.lineage.reached id).Pairwise (fun a b =>
      roster.lineage.distance id a ≤ roster.lineage.distance id b) ∧
    (∀ resource, ∀ t ∈ roster.resolve id resource, ∀ u ∈ roster.resolve id resource,
      roster.stepsToToken id resource t < roster.stepsToToken id resource u →
        (roster.resolve id resource).idxOf t < (roster.resolve id resource).idxOf u) ∧
    (roster.ancestors id).Pairwise fun a b =>
      roster.lineage.distance id a ≤ roster.lineage.distance id b := by
  refine ⟨roster.lineage.pairwise_distance_reached id, ?_, roster.pairwise_distance_ancestors id⟩
  intro resource t ht u _ hlt
  obtain ⟨a, ha, hdirect⟩ := (roster.mem_resolve_iff id resource t).mp ht
  rw [idxOf_lt_idxOf_resolve]
  exact Lineage.comesUpFirst_of_stepsTo_lt ha hdirect hlt

-- The shorter way counts for the role that two ways lead to.
theorem nearer_comes_first_twoWays :
    twoWays.stepsToToken (.named "lead") "posts" "edit:own" = 1 ∧
    twoWays.stepsToToken (.named "lead") "posts" "publish" = 2 ∧
    (twoWays.resolve (.named "lead") "posts").idxOf "edit:own" <
      (twoWays.resolve (.named "lead") "posts").idxOf "publish" := by
  have hedit : twoWays.stepsToToken (.named "lead") "posts" "edit:own" = 1 :=
    Lineage.stepsTo_eq (by decide) (by decide)
  have hpublish : twoWays.stepsToToken (.named "lead") "posts" "publish" = 2 :=
    Lineage.stepsTo_eq (by decide) (by decide)
  have hmem : "edit:own" ∈ twoWays.resolve (.named "lead") "posts" ∧
      "publish" ∈ twoWays.resolve (.named "lead") "posts" := by decide +kernel
  obtain ⟨_, htokens, _⟩ := nearer_comes_first twoWays (.named "lead")
  refine ⟨hedit, hpublish, htokens "posts" _ hmem.1 _ hmem.2 ?_⟩
  rw [hedit, hpublish]
  decide

end RoleAccess.Roster
