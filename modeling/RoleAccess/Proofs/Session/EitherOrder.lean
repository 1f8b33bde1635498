import RoleAccess.Proofs.Roster.Rights
import RoleAccess.Proofs.Session.Batching

namespace RoleAccess

namespace Roster

-- Where both updates have a list of parents for a role, the lists name the same parents.
def ParentsAgree (u v : Roster) : Prop :=
  ∀ id ps qs, u.ownParents id = some ps → v.ownParents id = some qs → ∀ p, p ∈ ps ↔ p ∈ qs

-- It is enough to look at the roles of one of them.
theorem parentsAgree_iff (u v : Roster) :
    u.ParentsAgree v ↔
      ∀ id ∈ u.ids, ∀ ps ∈ u.ownParents id, ∀ qs ∈ v.ownParents id,
        (∀ p ∈ ps, p ∈ qs) ∧ ∀ p ∈ qs, p ∈ ps := by
  constructor
  · intro h id _ ps hps qs hqs
    exact ⟨fun p => (h id ps qs hps hqs p).mp, fun p => (h id ps qs hps hqs p).mpr⟩
  · intro h id ps qs hps hqs p
    have hid : id ∈ u.ids := by
      apply (Table.contains_iff u.roles id).mp
      by_contra hnot
      rw [ownParents, get?_of_not_contains (Bool.eq_false_iff.mpr hnot)] at hps
      cases hps
    have hboth := h id hid ps hps qs hqs
    exact ⟨hboth.1 p, hboth.2 p⟩

instance (u v : Roster) : Decidable (u.ParentsAgree v) :=
  decidable_of_iff _ (parentsAgree_iff u v).symm

theorem ParentsAgree.symm {u v : Roster} (h : u.ParentsAgree v) : v.ParentsAgree u :=
  fun id ps qs hps hqs p => (h id qs ps hqs hps p).symm

theorem mem_parents_merge (roster : Roster) {update : Roster} (h : update.roles.Distinct)
    (id p : RoleId) :
    p ∈ (roster.merge update).parents id ↔
      (update.ownParents id).elim (p ∈ roster.parents id) fun ps => p ∈ ps.map .named := by
  rw [parents_eq, ownParents_merge roster h, parents_eq]
  cases update.ownParents id <;> simp

-- An update takes rosters that say the same of rights to such rosters again.
theorem SameRights.merge {a b update : Roster} (h : a.SameRights b) (hupdate : update.WellFormed) :
    (a.merge update).SameRights (b.merge update) where
  contains_eq id := by
    rw [contains_merge _ hupdate.ids, contains_merge _ hupdate.ids, h.contains_eq]
  mem_directTokens_iff id resource token := by
    rw [mem_directTokens_merge _ hupdate, mem_directTokens_merge _ hupdate,
      h.mem_directTokens_iff]
  mem_parents_iff id p := by
    rw [mem_parents_merge _ hupdate.ids, mem_parents_merge _ hupdate.ids, h.mem_parents_iff]

theorem SameRights.foldl_merge {a b : Roster} (h : a.SameRights b) {updates : List Roster}
    (hupdates : ∀ u ∈ updates, u.WellFormed) :
    (updates.foldl Roster.merge a).SameRights (updates.foldl Roster.merge b) := by
  induction updates generalizing a b with
  | nil => exact h
  | cons u updates ih =>
      obtain ⟨hu, hrest⟩ := List.forall_mem_cons.mp hupdates
      exact ih (h.merge hu) hrest

theorem mem_parents_merge_comm (roster : Roster) {u v : Roster} (hu : u.WellFormed)
    (hv : v.WellFormed) (h : u.ParentsAgree v) (id p : RoleId) :
    p ∈ ((roster.merge u).merge v).parents id ↔ p ∈ ((roster.merge v).merge u).parents id := by
  simp only [mem_parents_merge _ hu.ids, mem_parents_merge _ hv.ids]
  cases hps : u.ownParents id with
  | none => rfl
  | some ps =>
      cases hqs : v.ownParents id with
      | none => rfl
      | some qs => simp [h id ps qs hps hqs]

-- The two rosters may list all that they have in another order, and call the roles other names.
theorem sameRights_merge_comm (roster : Roster) {u v : Roster} (hu : u.WellFormed)
    (hv : v.WellFormed) (h : u.ParentsAgree v) :
    ((roster.merge u).merge v).SameRights ((roster.merge v).merge u) where
  contains_eq id := by
    simp only [contains_merge _ hu.ids, contains_merge _ hv.ids, Bool.or_right_comm]
  mem_directTokens_iff id resource token := by
    simp only [mem_directTokens_merge _ hu, mem_directTokens_merge _ hv, or_right_comm]
  mem_parents_iff := roster.mem_parents_merge_comm hu hv h

-- Of updates that agree on parents two by two, it does not matter which one comes when.
theorem sameRights_of_perm {us vs : List Roster} (h : us.Perm vs)
    (hwell : ∀ u ∈ us, u.WellFormed) (hagree : us.Pairwise ParentsAgree) (roster : Roster) :
    (us.foldl merge roster).SameRights (vs.foldl merge roster) := by
  induction h generalizing roster with
  | nil => exact .refl roster
  | cons u _ ih =>
      obtain ⟨_, hrest⟩ := List.forall_mem_cons.mp hwell
      exact ih hrest hagree.tail (roster.merge u)
  | swap u v rest =>
      obtain ⟨hv, htail⟩ := List.forall_mem_cons.mp hwell
      obtain ⟨hu, hrest⟩ := List.forall_mem_cons.mp htail
      have hfirst := (List.pairwise_cons.mp hagree).1 u List.mem_cons_self
      exact (roster.sameRights_merge_comm hv hu hfirst).foldl_merge hrest
  | trans hleft _ ihleft ihright =>
      have hwell' := fun u hu => hwell u (hleft.mem_iff.mpr hu)
      have hagree' := hagree.perm hleft fun hboth => hboth.symm
      exact (ihleft hwell hagree roster).trans (ihright hwell' hagree' roster)

end Roster

namespace Session

-- Updates that agree on parents may come in either order as far as rights go.
theorem takes_either_order (s : Session) (first second : Value) (u v : Roster)
    (hfirst : first.Describes u) (hsecond : second.Describes v) (h : u.ParentsAgree v) :
    ∃ a b, s.Takes [first, second] a ∧ s.Takes [second, first] b ∧ a.SameRights b := by
  have hwell : ∀ w ∈ [u, v], w.WellFormed := by
    simp [hfirst.wellFormed, hsecond.wellFormed]
  have hrights := Roster.sameRights_of_perm (.swap v u []) hwell (List.pairwise_pair.mpr h)
    s.roster
  exact ⟨_, _, takes_two hfirst hsecond s, takes_two hsecond hfirst s,
    sameRights_of_roster hrights⟩

-- Both updates have parents for one role, and one of them takes those of the other away.
theorem takes_either_order_revision :
    ∃ a b, staffed.Takes [revision, promotion (.list [.text "staff", .text "staff"])] a ∧
      staffed.Takes [promotion (.list [.text "staff", .text "staff"]), revision] b ∧
      a.SameRights b := by
  have hpromotion : (promotion (.list [.text "staff", .text "staff"])).Describes
      (promoted ["staff", "staff"]) := ⟨Value.vetted_of_written (by decide), rfl⟩
  have hagree : revised.ParentsAgree (promoted ["staff", "staff"]) := by decide
  exact takes_either_order staffed revision _ revised _ revision_describes hpromotion hagree

end Session

end RoleAccess
