import RoleAccess.Proofs.Lineage.Order
import RoleAccess.Proofs.Roster.Unrepeated
import RoleAccess.Proofs.Table.Laws

namespace RoleAccess

-- The tokens that a table has on a resource.
def tokensOn (t : Table String (List String)) (resource : String) : List String :=
  (t.get? resource).getD []

theorem eraseDups_tokensOn_absorb (t : Table String (List String))
    {new : Table String (List String)} (h : new.Distinct) (resource : String) :
    (tokensOn (t.absorb Role.addTokens new) resource).eraseDups =
      (tokensOn t resource ++ tokensOn new resource).eraseDups := by
  unfold tokensOn
  rw [Table.get?_absorb _ _ h]
  cases new.get? resource with
  | none => simp
  | some ts => simp [Role.addTokens, List.eraseDups_eraseDups]

namespace Roster

variable {roster : Roster}

theorem directTokens_eq (roster : Roster) (id : RoleId) (resource : String) :
    roster.directTokens id resource = tokensOn (roster.permissions id) resource := by
  unfold directTokens permissions
  cases roster.get? id <;> rfl

theorem TokensOnce.nodup_tokensOn {t : Table String (List String)} (h : TokensOnce t)
    (resource : String) : (tokensOn t resource).Nodup := by
  unfold tokensOn
  cases htokens : t.get? resource with
  | none => exact List.nodup_nil
  | some ts => exact h.2 _ (Table.mem_entries_of_get? htokens)

theorem eraseDups_tokensOn_foldl (h : ∀ a, (roster.permissions a).Distinct)
    (ids : List RoleId) (t : Table String (List String)) (resource : String) :
    (tokensOn (ids.foldl
      (fun resolved a => resolved.absorb Role.addTokens (roster.permissions a)) t)
        resource).eraseDups =
      (tokensOn t resource ++ ids.flatMap fun a => roster.directTokens a resource).eraseDups := by
  induction ids generalizing t with
  | nil => simp
  | cons a ids ih =>
      -- What the table takes in on other resources does not touch the tokens on this one.
      have hstep := eraseDups_tokensOn_absorb t (h a) resource
      rw [List.foldl_cons, ih, List.flatMap_cons, directTokens_eq, ← List.append_assoc]
      rw [← List.eraseDups_append_left, hstep, List.eraseDups_append_left]

theorem resolveAll_of_not_contains {id : RoleId} (h : roster.contains id = false) :
    roster.resolveAll id = .empty := by
  rw [resolveAll, h]
  rfl

-- All resources resolved at once, or one of them by itself: the tokens and their order agree.
theorem tokensOn_resolveAll (h : ∀ a, (roster.permissions a).Distinct) (id : RoleId)
    (resource : String) : tokensOn (roster.resolveAll id) resource = roster.resolve id resource := by
  cases hid : roster.contains id with
  | false =>
      rw [resolveAll_of_not_contains hid, resolve_of_not_contains hid]
      rfl
  | true =>
      have hnodup := (roster.tokensOnce_resolveAll id).nodup_tokensOn resource
      rw [← List.eraseDups_of_nodup hnodup, resolveAll, if_pos hid, eraseDups_tokensOn_foldl h]
      rfl

-- By induction on the roles that the walk comes to. Each one adds those of its resources that are
-- new, with tokens or without.
theorem keys_foldl_absorb (roster : Roster) (ids : List RoleId)
    {t : Table String (List String)} (ht : t.Distinct) :
    (ids.foldl
      (fun resolved a => resolved.absorb Role.addTokens (roster.permissions a)) t).keys =
      (t.keys ++ ids.flatMap roster.resources).eraseDups := by
  induction ids generalizing t with
  | nil =>
      have hkeys : t.keys.eraseDups = t.keys := List.eraseDups_of_nodup ht
      simpa using hkeys.symm
  | cons a ids ih =>
      have hstep := Table.keys_absorb_of_distinct Role.addTokens ht (roster.permissions a)
      rw [List.foldl_cons, ih (ht.absorb _ _), hstep, List.eraseDups_append_left,
        List.flatMap_cons, ← List.append_assoc]
      rfl

theorem keys_resolveAll (roster : Roster) (id : RoleId) :
    (roster.resolveAll id).keys =
      ((roster.lineage.reached id).flatMap roster.resources).eraseDups := by
  cases hid : roster.contains id with
  | false =>
      have hnone : (roster.lineage.reached id).flatMap roster.resources = [] := by
        rw [List.flatMap_eq_nil_iff]
        intro a ha
        have hreaches := (roster.lineage.mem_reached_iff id a).mp ha
        rw [hreaches.eq_of_no_parents (parents_of_not_contains hid)]
        exact resources_of_not_contains hid
      rw [resolveAll_of_not_contains hid, hnone]
      rfl
  | true =>
      rw [resolveAll, if_pos hid, keys_foldl_absorb roster _ Table.distinct_empty]
      rfl

-- A table that has all resources which somebody above the role has, in the order in which they
-- come up on the way, and under each one the tokens that hold for the role on it.
structure Tabulates (roster : Roster) (id : RoleId) (table : Table String (List String)) :
    Prop where
  mem_keys_iff : ∀ resource, resource ∈ table.keys ↔
    ∃ a, roster.lineage.Reaches id a ∧ resource ∈ roster.resources a
  nodup_keys : table.keys.Nodup
  order : ∀ first second, table.keys.idxOf first < table.keys.idxOf second ↔
    roster.lineage.ComesUpFirst id roster.resources first second
  get?_eq : ∀ resource ∈ table.keys, table.get? resource = some (roster.resolve id resource)
  resolve_eq_nil : ∀ resource, resource ∉ table.keys → roster.resolve id resource = []

-- The only thing asked of the roster is that a role has one list of tokens for a resource. The
-- lists may be empty and may have repetitions, and the role need not be known.
theorem resolveAll_tabulates (roster : Roster)
    (h : ∀ filed ∈ roster.roles.values, filed.role.permissions.Distinct) (id : RoleId) :
    roster.Tabulates id (roster.resolveAll id) := by
  have htokens := tokensOn_resolveAll (distinct_permissions h) id
  refine ⟨?_, (roster.tokensOnce_resolveAll id).1, ?_, ?_, ?_⟩
  · intro resource
    simp only [keys_resolveAll, List.mem_eraseDups, List.mem_flatMap, Lineage.mem_reached_iff]
  · intro first second
    rw [keys_resolveAll]
    exact roster.lineage.idxOf_lt_idxOf_collected id roster.resources first second
  · intro resource hresource
    rw [← Table.contains_iff, Table.contains, Option.isSome_iff_exists] at hresource
    obtain ⟨tokens, hget⟩ := hresource
    rw [← htokens resource, tokensOn, hget, Option.getD_some]
  · intro resource hresource
    have hget := (Table.get?_eq_none_iff _ resource).mpr hresource
    rw [← htokens resource, tokensOn, hget, Option.getD_none]

-- One role is found straight above the first and again in a longer way round, which leads back to
-- where it began. Some lists of tokens are empty, one has a repetition, and one parent is unknown.
def twoWays : Roster :=
  ⟨⟨[(.named "lead", ⟨.text "lead",
      ⟨none, none, ⟨[("drafts", [])]⟩, some ["chief", "staff"]⟩⟩),
    (.named "chief", ⟨.text "chief",
      ⟨none, none, ⟨[("files", [])]⟩, some ["base"]⟩⟩),
    (.named "base", ⟨.text "base",
      ⟨none, none, ⟨[("posts", ["publish"]), ("drafts", ["read", "read"])]⟩,
        some ["staff", "lead"]⟩⟩),
    (.named "staff", ⟨.text "staff",
      ⟨none, none, ⟨[("posts", ["edit:own"]), ("files", ["read"])]⟩, some ["ghost"]⟩⟩)]⟩⟩

theorem resolveAll_tabulates_twoWays :
    (∀ filed ∈ twoWays.roles.values, filed.role.permissions.Distinct) ∧
    (twoWays.resolveAll (.named "lead")).keys = ["drafts", "files", "posts"] ∧
    (twoWays.resolveAll (.named "lead")).get? "posts" = some ["edit:own", "publish"] ∧
    twoWays.lineage.ComesUpFirst (.named "lead") twoWays.resources "files" "posts" := by
  have hdistinct : ∀ filed ∈ twoWays.roles.values, filed.role.permissions.Distinct := by
    unfold Table.Distinct
    decide
  have hkeys : (twoWays.resolveAll (.named "lead")).keys = ["drafts", "files", "posts"] := by
    decide +kernel
  have htokens : twoWays.resolve (.named "lead") "posts" = ["edit:own", "publish"] := by
    decide +kernel
  have htable := resolveAll_tabulates twoWays hdistinct (.named "lead")
  have hget := htable.get?_eq "posts" (by rw [hkeys]; decide)
  rw [htokens] at hget
  have hfirst := (htable.order "files" "posts").mp (by rw [hkeys]; decide)
  exact ⟨hdistinct, hkeys, hget, hfirst⟩

end Roster

end RoleAccess
