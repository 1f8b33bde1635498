import RoleAccess.Proofs.Roster.ResolveAll
import RoleAccess.Proofs.Roster.SameTokens

namespace RoleAccess.Roster

variable {roster : Roster}

-- All roles with what they inherit as their own, so that nobody has parents any more.
def flattened (roster : Roster) : Roster :=
  ⟨roster.roles.mapEntries fun id filed =>
    { filed with
      role := { filed.role with permissions := roster.resolveAll id, inherits := none } }⟩

theorem get?_flattened (roster : Roster) (id : RoleId) :
    roster.flattened.get? id = (roster.get? id).map fun role =>
      { role with permissions := roster.resolveAll id, inherits := none } := by
  unfold get? flattened
  rw [Table.get?_mapEntries, Option.map_map, Option.map_map]
  rfl

theorem contains_flattened (roster : Roster) (id : RoleId) :
    roster.flattened.contains id = roster.contains id := by
  unfold contains Table.contains flattened
  rw [Table.get?_mapEntries, Option.isSome_map]

theorem displayName_flattened (roster : Roster) (id : RoleId) :
    roster.flattened.displayName id = roster.displayName id := by
  unfold displayName
  rw [get?_flattened]
  cases roster.get? id <;> rfl

theorem parents_flattened (roster : Roster) (id : RoleId) : roster.flattened.parents id = [] := by
  unfold parents
  rw [get?_flattened]
  cases roster.get? id <;> rfl

theorem permissions_flattened (roster : Roster) (id : RoleId) :
    roster.flattened.permissions id = roster.resolveAll id := by
  cases hid : roster.contains id with
  | false =>
      have hflat : roster.flattened.contains id = false := by rw [contains_flattened, hid]
      rw [permissions, get?_of_not_contains hflat, resolveAll_of_not_contains hid]
      rfl
  | true =>
      obtain ⟨role, hrole⟩ : ∃ role, roster.get? id = some role := by
        rwa [contains, Table.contains, ← Option.isSome_map, Option.isSome_iff_exists] at hid
      rw [permissions, get?_flattened, hrole]
      rfl

theorem reached_flattened (roster : Roster) (id : RoleId) :
    roster.flattened.lineage.reached id = [id] := by
  have hparents : roster.flattened.lineage.parents id = [] := roster.parents_flattened id
  rw [Lineage.reached_eq, Lineage.members_cons, hparents]
  simp [Lineage.look, Lineage.members_nil]

theorem WellFormed.resolve_flattened (h : roster.WellFormed) (id : RoleId) (resource : String) :
    roster.flattened.resolve id resource = roster.resolve id resource := by
  have hnodup := roster.nodup_resolve id resource
  rw [resolve, reached_flattened, List.flatMap_singleton, directTokens_eq, permissions_flattened,
    tokensOn_resolveAll h.nodup_resources, List.eraseDups_of_nodup hnodup]

theorem resolveAll_flattened (roster : Roster) (id : RoleId) :
    roster.flattened.resolveAll id = roster.resolveAll id := by
  cases hid : roster.contains id with
  | false =>
      have hflat : roster.flattened.contains id = false := by rw [contains_flattened, hid]
      rw [resolveAll_of_not_contains hflat, resolveAll_of_not_contains hid]
  | true =>
      have hflat : roster.flattened.contains id = true := by rw [contains_flattened, hid]
      obtain ⟨hdistinct, hnodup⟩ := roster.tokensOnce_resolveAll id
      rw [resolveAll, if_pos hflat, reached_flattened, List.foldl_cons, List.foldl_nil,
        permissions_flattened]
      exact Table.empty_absorb hdistinct fun e he => List.eraseDups_of_nodup (hnodup e he)

-- Unknown roles stay unknown, and the known ones find at home what they found on their way up.
theorem WellFormed.sameTokens_flattened (h : roster.WellFormed) (id : RoleId) :
    roster.flattened.SameTokens roster id where
  contains_eq := roster.contains_flattened id
  displayName_eq := roster.displayName_flattened id
  resolve_eq := h.resolve_flattened id
  resolveAll_eq := roster.resolveAll_flattened id

theorem WellFormed.flattened (h : roster.WellFormed) : roster.flattened.WellFormed := by
  rw [wellFormed_iff] at *
  refine ⟨?_, ?_⟩
  · unfold Table.Distinct Roster.flattened
    rw [Table.keys_mapEntries]
    exact h.1
  · intro e he
    obtain ⟨held, hheld, rfl⟩ := List.mem_map.mp he
    obtain ⟨hdistinct, hnodup⟩ := roster.tokensOnce_resolveAll held.1
    refine ⟨(h.2 held hheld).1, hdistinct, ?_⟩
    intro tokens htokens
    obtain ⟨entry, hentry, rfl⟩ := List.mem_map.mp htokens
    exact hnodup entry hentry

end RoleAccess.Roster
