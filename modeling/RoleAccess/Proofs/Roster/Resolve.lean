import RoleAccess.Explanation
import RoleAccess.Proofs.Lineage.Reach

namespace RoleAccess.Roster

variable {roster : Roster} {id : RoleId}

theorem get?_of_not_contains (h : roster.contains id = false) : roster.get? id = none := by
  have hnone : roster.roles.get? id = none := by
    simpa [contains, Table.contains] using h
  simp [get?, hnone]

theorem parents_of_not_contains (h : roster.contains id = false) : roster.parents id = [] := by
  simp [parents, get?_of_not_contains h]

theorem directTokens_of_not_contains (h : roster.contains id = false) (resource : String) :
    roster.directTokens id resource = [] := by
  simp [directTokens, get?_of_not_contains h]

theorem resources_of_not_contains (h : roster.contains id = false) : roster.resources id = [] := by
  simp [resources, permissions, get?_of_not_contains h, Table.keys, Table.empty]

theorem displayName_of_not_contains (h : roster.contains id = false) :
    roster.displayName id = id.shown := by
  simp [displayName, get?_of_not_contains h]

theorem mem_resources_of_mem_directTokens {resource token : String}
    (h : token ∈ roster.directTokens id resource) :
    resource ∈ roster.resources id := by
  unfold directTokens Role.tokens at h
  unfold resources permissions
  cases hrole : roster.get? id with
  | none => simp [hrole] at h
  | some role =>
      rw [hrole] at h
      change resource ∈ role.permissions.keys
      rw [← Table.contains_iff, Table.contains]
      cases htokens : role.permissions.get? resource with
      | none => simp [htokens] at h
      | some tokens => rfl

-- A token holds for a role when it is given to somebody above, the role itself included.
theorem mem_resolve_iff (roster : Roster) (id : RoleId) (resource token : String) :
    token ∈ roster.resolve id resource ↔
      ∃ a, roster.lineage.Reaches id a ∧ token ∈ roster.directTokens a resource := by
  simp only [resolve, List.mem_eraseDups, List.mem_flatMap, Lineage.mem_reached_iff]

-- By the first step up, whatever circles there are: the ways that lead up through the parents are
-- the ways of the parents.
theorem mem_resolve_iff_parents (roster : Roster) (id : RoleId) (resource t : String) :
    t ∈ roster.resolve id resource ↔ t ∈ roster.directTokens id resource ∨
      ∃ p ∈ roster.parents id, t ∈ roster.resolve p resource := by
  simp only [mem_resolve_iff]
  constructor
  · rintro ⟨a, ha, hdirect⟩
    rcases (roster.lineage.reaches_iff_parents id a).mp ha with rfl | ⟨p, hp, hpa⟩
    · exact .inl hdirect
    · exact .inr ⟨p, hp, a, hpa, hdirect⟩
  · rintro (hdirect | ⟨p, hp, a, hpa, hdirect⟩)
    · exact ⟨id, Relation.ReflTransGen.refl, hdirect⟩
    · exact ⟨a, (roster.lineage.reaches_iff_parents id a).mpr (.inr ⟨p, hp, hpa⟩), hdirect⟩

theorem resolve_of_not_contains (h : roster.contains id = false) (resource : String) :
    roster.resolve id resource = [] := by
  rw [List.eq_nil_iff_forall_not_mem]
  intro token htoken
  obtain ⟨a, ha, hdirect⟩ := (mem_resolve_iff _ _ _ _).mp htoken
  -- Nobody else is above a role without parents.
  have hself := ha.eq_of_no_parents (parents_of_not_contains h)
  rw [hself, directTokens_of_not_contains h] at hdirect
  exact List.not_mem_nil hdirect

theorem inheritsFrom_iff (roster : Roster) (id ancestor : RoleId) :
    roster.inheritsFrom id ancestor = true ↔
      roster.contains id = true ∧ roster.contains ancestor = true ∧
        roster.lineage.Reaches id ancestor := by
  simp [inheritsFrom, Lineage.mem_reached_iff, and_assoc]

theorem hasWildcard_iff (roster : Roster) (id : RoleId) (resource : String) :
    roster.hasWildcard id resource = true ↔
      Permission.wildcard ∈ roster.resolve id resource := by
  simp [hasWildcard]

theorem can_iff (roster : Roster) (id : RoleId) (requests : List String) (resource : String) :
    roster.can id requests resource = true ↔
      ∃ request ∈ requests, grants (roster.resolve id resource) request = true := by
  simp [can]

theorem can_singleton (roster : Roster) (id : RoleId) (request resource : String) :
    roster.can id [request] resource = grants (roster.resolve id resource) request := by
  simp [can]

end RoleAccess.Roster
