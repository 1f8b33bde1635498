import RoleAccess.Proofs.Roster.Resolve
import RoleAccess.Proofs.Session.Takes

namespace RoleAccess

namespace Roster

-- An update that leaves all parents as they are.
def OmitsParents (update : Roster) : Prop :=
  ∀ filed ∈ update.roles.values, filed.role.inherits = none

instance (update : Roster) : Decidable update.OmitsParents :=
  inferInstanceAs (Decidable (∀ filed ∈ update.roles.values, filed.role.inherits = none))

theorem OmitsParents.ownParents {update : Roster} (h : update.OmitsParents) (id : RoleId) :
    update.ownParents id = none := by
  unfold Roster.ownParents get?
  cases hid : update.roles.get? id with
  | none => rfl
  | some filed => exact h filed (List.mem_map_of_mem (Table.mem_entries_of_get? hid))

theorem trace_merge (roster : Roster) {update : Roster} (h : update.roles.Distinct)
    (hparents : update.OmitsParents) (id : RoleId) :
    (roster.merge update).lineage.trace id = roster.lineage.trace id := by
  have hsame : (roster.merge update).parents = roster.parents := by
    funext a
    rw [parents_eq, parents_eq, ownParents_merge _ h, hparents.ownParents, Option.none_or]
  exact Lineage.trace_congr hsame id

theorem reached_merge (roster : Roster) {update : Roster} (h : update.roles.Distinct)
    (hparents : update.OmitsParents) (id : RoleId) :
    (roster.merge update).lineage.reached id = roster.lineage.reached id := by
  unfold Lineage.reached
  rw [roster.trace_merge h hparents]

-- A role that was only named as a parent before counts as soon as it is given tokens.
theorem mem_resolve_merge (roster : Roster) {update : Roster} (h : update.WellFormed)
    (hparents : update.OmitsParents) (id : RoleId) (resource token : String) :
    token ∈ (roster.merge update).resolve id resource ↔
      token ∈ roster.resolve id resource ∨
        ∃ a ∈ roster.lineage.reached id, token ∈ update.directTokens a resource := by
  simp only [mem_resolve_iff, ← Lineage.mem_reached_iff, reached_merge roster h.ids hparents,
    mem_directTokens_merge roster h, and_or_left, exists_or]

-- Where the update has nothing to give, even the order of the tokens stays.
theorem WellFormed.resolve_merge {roster update : Roster} (hroster : roster.WellFormed)
    (h : update.WellFormed) (hparents : update.OmitsParents) {resource : String}
    (hresource : ∀ a, resource ∉ update.resources a) (id : RoleId) :
    (roster.merge update).resolve id resource = roster.resolve id resource := by
  have hdirect : ∀ a, (roster.merge update).directTokens a resource =
      roster.directTokens a resource := by
    intro a
    have hnone : update.directTokens a resource = [] := by
      rw [List.eq_nil_iff_forall_not_mem]
      exact fun token htoken => hresource a (mem_resources_of_mem_directTokens htoken)
    rw [directTokens_merge hroster h, hnone, List.filter_nil, List.append_nil]
  simp only [resolve, reached_merge roster h.ids hparents, hdirect]

-- How the rights grow when only tokens come in: everybody is found above a role as before, and
-- the role gets what is given to those found.
structure GrownBy (old update new : Roster) : Prop where
  trace : ∀ id, new.lineage.trace id = old.lineage.trace id
  reached : ∀ id, new.lineage.reached id = old.lineage.reached id
  mem_resolve_iff : ∀ id resource token, token ∈ new.resolve id resource ↔
    token ∈ old.resolve id resource ∨
      ∃ a ∈ old.lineage.reached id, token ∈ update.directTokens a resource
  kept : ∀ id resource, old.resolve id resource ⊆ new.resolve id resource
  untouched : ∀ resource, (∀ a, resource ∉ update.resources a) →
    ∀ id, new.resolve id resource = old.resolve id resource

theorem WellFormed.grownBy_merge {roster update : Roster} (hroster : roster.WellFormed)
    (h : update.WellFormed) (hparents : update.OmitsParents) :
    roster.GrownBy update (roster.merge update) where
  trace := roster.trace_merge h.ids hparents
  reached := roster.reached_merge h.ids hparents
  mem_resolve_iff := roster.mem_resolve_merge h hparents
  kept id resource token htoken :=
    (roster.mem_resolve_merge h hparents id resource token).mpr (.inl htoken)
  untouched _ hresource := hroster.resolve_merge h hparents hresource

end Roster

namespace Session

-- An update without parents gives what it says, to all who have it coming, and nothing else.
theorem takes_grows (s : Session) (hs : s.Reachable) (configuration : Value) (update : Roster)
    (h : configuration.Describes update) (hparents : update.OmitsParents) :
    ∃ t, s.Takes [configuration] t ∧ s.roster.GrownBy update t.roster :=
  ⟨_, takes_one h s, hs.wellFormed.grownBy_merge h.wellFormed hparents⟩

-- One parent of the role is not known until the update defines it.
def haunted : Session :=
  (staffed.run (.merge (promotion (.list [.text "staff", .text "ghost"])))).session

theorem haunted_reachable : haunted.Reachable := by
  refine .run _ _ staffed_reachable ?_
  rintro _ ⟨⟩
  exact Value.vetted_of_written (by decide)

def summons : Value :=
  .map [(.text "ghost", .map [(.text "permissions",
    .map [(.text "posts", .list [.text "publish"])])])]

def summoned : Roster :=
  ⟨⟨[(.named "ghost", ⟨.text "ghost", ⟨none, none, ⟨[("posts", ["publish"])]⟩, none⟩⟩)]⟩⟩

theorem takes_grows_haunted :
    "publish" ∉ haunted.roster.resolve (.named "lead") "posts" ∧
    ∃ t, haunted.Takes [summons] t ∧ "publish" ∈ t.roster.resolve (.named "lead") "posts" := by
  have hsummons : summons.Describes summoned := ⟨Value.vetted_of_written (by decide), rfl⟩
  have hghost : .named "ghost" ∈ haunted.roster.lineage.reached (.named "lead") := by
    decide +kernel
  obtain ⟨t, ht, hgrown⟩ :=
    takes_grows haunted haunted_reachable summons summoned hsummons (by decide)
  refine ⟨by decide +kernel, t, ht, (hgrown.mem_resolve_iff _ _ _).mpr (.inr ⟨_, hghost, ?_⟩)⟩
  decide

end Session

end RoleAccess
