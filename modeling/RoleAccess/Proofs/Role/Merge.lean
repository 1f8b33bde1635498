import RoleAccess.Proofs.Roster.WellFormed
import RoleAccess.Proofs.Table.Laws

namespace RoleAccess.Role

theorem WellFormed.nodup_tokens {role : Role} (h : role.WellFormed) (resource : String) :
    (role.tokens resource).Nodup := by
  unfold Role.tokens
  cases hresource : role.permissions.get? resource with
  | none => exact List.nodup_nil
  | some ts => exact h.nodup_entry _ (Table.mem_entries_of_get? hresource)

theorem tokens_merge_eq (old : Role) {new : Role} (h : new.permissions.Distinct)
    (resource : String) :
    (old.merge new).tokens resource =
      (new.permissions.get? resource).elim (old.tokens resource) fun ts =>
        (old.tokens resource ++ ts).eraseDups := by
  simp only [Role.tokens, Role.merge, Table.get?_absorb addTokens _ h]
  cases new.permissions.get? resource <;> rfl

-- The tokens held so far keep their place, and those that are new come behind them.
theorem tokens_merge {old new : Role} (hold : old.WellFormed) (hnew : new.WellFormed)
    (resource : String) :
    (old.merge new).tokens resource =
      old.tokens resource ++ (new.tokens resource).filter (· ∉ old.tokens resource) := by
  have hheld := hold.nodup_tokens resource
  have hadded := hnew.nodup_tokens resource
  rw [tokens_merge_eq old hnew.resources]
  unfold Role.tokens at hadded ⊢
  cases hresource : new.permissions.get? resource with
  | none => simp
  | some ts =>
      rw [hresource] at hadded
      exact List.eraseDups_append_of_nodup hheld hadded

theorem mem_tokens_merge (old : Role) {new : Role} (h : new.permissions.Distinct)
    (resource token : String) :
    token ∈ (old.merge new).tokens resource ↔
      token ∈ old.tokens resource ∨ token ∈ new.tokens resource := by
  have hnew : new.tokens resource = (new.permissions.get? resource).getD [] := rfl
  rw [tokens_merge_eq old h, hnew]
  cases new.permissions.get? resource <;> simp

theorem resources_merge (old : Role) {new : Role} (h : new.permissions.Distinct) :
    (old.merge new).permissions.keys =
      old.permissions.keys ++
        new.permissions.keys.filter (· ∉ old.permissions.keys) := by
  have hkeys := Table.keys_absorb addTokens old.permissions h
  simp only [Table.contains_eq_decide, ← decide_not] at hkeys
  exact hkeys

-- Tokens may be added one list after the other or the lists put together first.
theorem addTokens_assoc (held : Option (List String)) (new next : List String) :
    addTokens (some (addTokens held new)) next = addTokens held (addTokens (some new) next) := by
  simp only [addTokens, Option.getD_some, List.eraseDups_append_left,
    List.eraseDups_append_right, List.append_assoc]

theorem addTokens_none (held : Option (List String)) (new : List String) :
    addTokens held (addTokens none new) = addTokens held new := by
  simp only [addTokens, Option.getD_none, List.nil_append, List.eraseDups_append_right]

theorem addTokens_again (held : Option (List String)) (new : List String) :
    addTokens (some (addTokens held new)) new = addTokens held new := by
  have hsub : new ⊆ held.getD [] ++ new := List.subset_append_right _ _
  simp only [addTokens, Option.getD_some, List.eraseDups_append_left,
    List.eraseDups_append_of_subset hsub]

variable {a b c : Role}

theorem WellFormed.merge_assoc (ha : a.WellFormed) (hb : b.WellFormed) (hc : c.WellFormed) :
    (a.merge b).merge c = a.merge (b.merge c) := by
  have hpermissions := Table.absorb_assoc ha.resources hb.resources hc.resources
    (fun _ new next _ _ => addTokens_assoc _ new next) (fun _ next _ => addTokens_none _ next)
  simp only [Role.merge, hpermissions, Option.or_assoc]

theorem WellFormed.merge_again (ha : a.WellFormed) (hb : b.WellFormed) :
    (a.merge b).merge b = a.merge b := by
  have hpermissions := Table.absorb_self ha.resources hb.resources
    fun _ new _ => addTokens_again _ new
  simp only [Role.merge, hpermissions, ← Option.or_assoc, Option.or_self]

theorem wellFormed_empty : empty.WellFormed where
  resources := Table.distinct_empty
  tokens := by simp [empty, Table.empty, Table.values]

theorem WellFormed.empty_merge (ha : a.WellFormed) : empty.merge a = a := by
  have hpermissions := Table.empty_absorb (f := addTokens) ha.resources
    fun e he => List.eraseDups_of_nodup (ha.nodup_entry e he)
  simp [Role.merge, empty, hpermissions]

-- A role has nothing to add to itself.
theorem WellFormed.merge_self (ha : a.WellFormed) : a.merge a = a := by
  have hagain := wellFormed_empty.merge_again ha
  rwa [ha.empty_merge] at hagain

end RoleAccess.Role
