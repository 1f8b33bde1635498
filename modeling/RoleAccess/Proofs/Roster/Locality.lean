import RoleAccess.Proofs.Roster.Merge
import RoleAccess.Proofs.Roster.SameTokens

namespace RoleAccess.Roster

-- Two rosters that have the same roles from one role upwards. Of all others, and of whether
-- there are any others, they may say what they like.
def SameAbove (a b : Roster) (id : RoleId) : Prop :=
  ∀ c, a.lineage.Reaches id c → a.get? c = b.get? c

theorem contains_eq_isSome (roster : Roster) (id : RoleId) :
    roster.contains id = (roster.get? id).isSome := by
  simp [contains, Table.contains, get?]

namespace SameAbove

variable {a b : Roster} {id c : RoleId}

theorem get?_eq (h : a.SameAbove b id) : a.get? id = b.get? id := h id .refl

theorem contains_eq (h : a.SameAbove b id) (hc : a.lineage.Reaches id c) :
    a.contains c = b.contains c := by
  rw [contains_eq_isSome, contains_eq_isSome, h c hc]

theorem trace_eq (h : a.SameAbove b id) : a.lineage.trace id = b.lineage.trace id := by
  refine Lineage.trace_congr_of_reaches fun c hc => ?_
  change a.parents c = b.parents c
  rw [parents, parents, h c hc]

theorem reached_eq (h : a.SameAbove b id) : a.lineage.reached id = b.lineage.reached id := by
  rw [Lineage.reached, Lineage.reached, h.trace_eq]

theorem reaches_iff (h : a.SameAbove b id) :
    a.lineage.Reaches id c ↔ b.lineage.Reaches id c := by
  rw [← Lineage.mem_reached_iff, ← Lineage.mem_reached_iff, h.reached_eq]

theorem resolve_eq (h : a.SameAbove b id) (resource : String) :
    a.resolve id resource = b.resolve id resource := by
  have htokens : ∀ c ∈ a.lineage.reached id,
      a.directTokens c resource = b.directTokens c resource := by
    intro c hc
    rw [directTokens, directTokens, h c ((Lineage.mem_reached_iff _ _ _).mp hc)]
  unfold resolve
  rw [← h.reached_eq, List.flatMap_congr htokens]

theorem resolveAll_eq (h : a.SameAbove b id) : a.resolveAll id = b.resolveAll id := by
  have hpermissions : ∀ c ∈ a.lineage.reached id, a.permissions c = b.permissions c := by
    intro c hc
    rw [permissions, permissions, h c ((Lineage.mem_reached_iff _ _ _).mp hc)]
  unfold resolveAll
  rw [← h.reached_eq, h.contains_eq .refl]
  refine congrArg (fun t => if b.contains id then t else Table.empty) ?_
  refine List.foldl_ext _ _ _ fun resolved c hc => ?_
  rw [hpermissions c hc]

theorem ancestors_eq (h : a.SameAbove b id) : a.ancestors id = b.ancestors id := by
  unfold ancestors
  rw [← h.reached_eq, h.contains_eq .refl]
  refine congrArg (fun l => if b.contains id then l else []) (List.filter_congr ?_)
  intro c hc
  rw [h.contains_eq ((Lineage.mem_reached_iff _ _ _).mp hc)]

-- One of the two may know an ancestor that the other does not, but then neither comes to it.
theorem inheritsFrom_eq (h : a.SameAbove b id) (c : RoleId) :
    a.inheritsFrom id c = b.inheritsFrom id c := by
  rw [Bool.eq_iff_iff, inheritsFrom_iff, inheritsFrom_iff, ← h.reaches_iff, h.contains_eq .refl]
  refine and_congr_right fun _ => and_congr_left fun hc => ?_
  rw [h.contains_eq hc]

theorem displayName_eq (h : a.SameAbove b id) : a.displayName id = b.displayName id := by
  rw [displayName, displayName, h.get?_eq]

theorem sameTokens (h : a.SameAbove b id) : a.SameTokens b id where
  contains_eq := h.contains_eq .refl
  displayName_eq := h.displayName_eq
  resolve_eq := h.resolve_eq
  resolveAll_eq := h.resolveAll_eq

end SameAbove

-- An update that names nobody above a role leaves all that the role depends on in place.
theorem sameAbove_merge (roster : Roster) {update : Roster} (h : update.roles.Distinct)
    {id : RoleId} (hid : ∀ c, roster.lineage.Reaches id c → update.contains c = false) :
    roster.SameAbove (roster.merge update) id := by
  intro c hc
  rw [roster.get?_merge h, get?_of_not_contains (hid c hc)]
  rfl

end RoleAccess.Roster
