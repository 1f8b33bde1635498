import RoleAccess.Proofs.Lineage.Reach

namespace RoleAccess.Lineage

variable {α : Type} [DecidableEq α]

-- The entries in the parent list of `c` that lead back to the start, each one as the `c` that it is
-- found with.
def returns (l : Lineage α) (start c : α) : List α :=
  ((l.parents c).filter (· = start)).map fun _ => c

-- What there is to see of one member: the member, and then the entries that lead back.
def sightings (l : Lineage α) (start c : α) : List (Sighting α) :=
  .member c :: (l.returns start c).map .cycle

-- The start has been seen from the outset, so no entry that leads back to it is ever new. All
-- other entries, new or not, leave no trace.
theorem look_cycles (l : Lineage α) {start via : α} {seen : List α} (hstart : start ∈ seen) :
    (look start via seen (l.parents via)).2 = (l.returns start via).map .cycle := by
  unfold returns
  generalize l.parents via = ps
  induction ps generalizing seen with
  | nil => rfl
  | cons p ps ih =>
      unfold look
      split
      · by_cases hp : p = start <;> simp [hp, ih hstart]
      · rename_i hseen
        have hp : p ≠ start := fun h => hseen (h ▸ hstart)
        simpa [hp] using ih (List.mem_append_left [p] hstart)

theorem walk_eq_flatMap (l : Lineage α) {start : α} {done queue : List α}
    (hstart : start ∈ done ++ queue) :
    l.walk start done queue = (l.members start done queue).flatMap (l.sightings start) := by
  induction done, queue using walk.induct l start with
  | case1 done => rw [walk, members_nil, List.flatMap_nil]
  | case2 done via queue _ ih =>
      have hnext : start ∈ done ++ [via] ++
          (queue ++ (look start via (done ++ via :: queue) (l.parents via)).1) := by
        rw [seen_after_visit]
        exact List.mem_append_left _ hstart
      rw [walk, members_cons, List.flatMap_cons, ih hnext, look_cycles l hstart]
      rfl

-- A walk sees what there is to see of one member after the other.
theorem trace_eq_flatMap (l : Lineage α) (start : α) :
    l.trace start = (l.reached start).flatMap (l.sightings start) :=
  l.walk_eq_flatMap (List.mem_append_right [] (List.mem_singleton.mpr rfl))

theorem cycles_sightings (l : Lineage α) (start : α) (cs : List α) :
    (cs.flatMap (l.sightings start)).filterMap (·.cycle?) = cs.flatMap (l.returns start) := by
  induction cs with
  | nil => rfl
  | cons c cs ih =>
      have hcycles : (l.sightings start c).filterMap (·.cycle?) = l.returns start c := by
        rw [sightings, List.filterMap_cons_none rfl, List.filterMap_map]
        exact List.filterMap_some
      rw [List.flatMap_cons, List.filterMap_append, hcycles, ih, List.flatMap_cons]

-- Whoever stops at a member leaves out that one, all that is seen of it, and all that comes later.
theorem takeWhile_sightings (l : Lineage α) (start goal : α) (cs : List α) :
    (cs.flatMap (l.sightings start)).takeWhile (· ≠ .member goal) =
      (cs.takeWhile (· ≠ goal)).flatMap (l.sightings start) := by
  induction cs with
  | nil => rfl
  | cons c cs ih =>
      by_cases hc : c = goal
      · simp [sightings, hc]
      · have hreturns : ∀ s ∈ l.sightings start c, decide (s ≠ .member goal) = true := by
          simp [sightings, hc]
        rw [List.flatMap_cons, List.takeWhile_append_of_pos hreturns, ih,
          List.takeWhile_cons_of_pos (by simpa using hc), List.flatMap_cons]

theorem cycles_trace (l : Lineage α) (start : α) :
    (l.trace start).filterMap (·.cycle?) = (l.reached start).flatMap (l.returns start) := by
  rw [trace_eq_flatMap, cycles_sightings]

theorem cycles_traceUntil (l : Lineage α) (start goal : α) :
    (l.traceUntil start goal).filterMap (·.cycle?) =
      ((l.reached start).takeWhile (· ≠ goal)).flatMap (l.returns start) := by
  rw [traceUntil, trace_eq_flatMap, takeWhile_sightings, cycles_sightings]

-- There is a way back to the start exactly if somebody who is reached has it for a parent.
theorem exists_return_iff (l : Lineage α) (start : α) :
    (∃ c ∈ l.reached start, start ∈ l.parents c) ↔ Relation.TransGen l.IsParent start start := by
  rw [Relation.TransGen.tail'_iff]
  simp only [mem_reached_iff, Reaches, IsParent]

end RoleAccess.Lineage
