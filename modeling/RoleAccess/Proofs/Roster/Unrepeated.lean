import RoleAccess.Proofs.Roster.Merge
import RoleAccess.Proofs.Roster.Resolve

namespace RoleAccess.Roster

variable {roster : Roster}

-- The keys that are listed lead to the roles that are held, one by one.
theorem WellFormed.map_ofKey_keys (h : roster.WellFormed) :
    roster.keys.map RoleId.ofKey = roster.ids := by
  unfold Roster.keys Roster.ids Table.values Table.keys
  rw [List.map_map, List.map_map]
  exact List.map_congr_left h.keys

theorem WellFormed.nodup_keys (h : roster.WellFormed) :
    (roster.keys.map RoleId.ofKey).Nodup := by
  rw [h.map_ofKey_keys]
  exact h.ids

theorem distinct_permissions
    (h : ∀ filed ∈ roster.roles.values, filed.role.permissions.Distinct) (id : RoleId) :
    (roster.permissions id).Distinct := by
  unfold permissions
  cases hrole : roster.get? id with
  | none => exact Table.distinct_empty
  | some role =>
      obtain ⟨filed, hfiled, rfl⟩ := Option.map_eq_some_iff.mp hrole
      exact h filed (List.mem_map_of_mem (Table.mem_entries_of_get? hfiled))

theorem WellFormed.nodup_resources (h : roster.WellFormed) (id : RoleId) :
    (roster.resources id).Nodup :=
  distinct_permissions (fun filed hfiled => (h.roles filed hfiled).resources) id

theorem WellFormed.nodup_directTokens (h : roster.WellFormed) (id : RoleId)
    (resource : String) : (roster.directTokens id resource).Nodup := by
  unfold directTokens
  cases hrole : roster.get? id with
  | none => exact List.nodup_nil
  | some role => exact (h.role_of_get? hrole).nodup_tokens resource

theorem nodup_resolve (roster : Roster) (id : RoleId) (resource : String) :
    (roster.resolve id resource).Nodup :=
  List.nodup_eraseDups _

-- No resource comes twice, and no token on a resource.
def TokensOnce (t : Table String (List String)) : Prop :=
  t.Distinct ∧ ∀ e ∈ t.entries, e.2.Nodup

theorem TokensOnce.addTokens {t : Table String (List String)} (h : TokensOnce t)
    (new : Table String (List String)) : TokensOnce (t.absorb Role.addTokens new) :=
  ⟨h.1.absorb _ _, Role.nodup_absorb_addTokens h.2 new⟩

-- By induction on the roles that the walk comes to. Each one adds its tokens to a table without
-- repetitions and leaves it so, whatever they are.
theorem tokensOnce_resolveAll (roster : Roster) (id : RoleId) :
    TokensOnce (roster.resolveAll id) := by
  have hempty : TokensOnce .empty := ⟨Table.distinct_empty, by simp [Table.empty]⟩
  have hrun : ∀ (ids : List RoleId) (t : Table String (List String)), TokensOnce t →
      TokensOnce (ids.foldl
        (fun resolved a => resolved.absorb Role.addTokens (roster.permissions a)) t) := by
    intro ids
    induction ids with
    | nil => exact fun t ht => ht
    | cons a ids ih => exact fun t ht => ih _ (ht.addTokens _)
  unfold resolveAll
  split
  · exact hrun _ _ hempty
  · exact hempty

end RoleAccess.Roster
