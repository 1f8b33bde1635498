import RoleAccess.Proofs.Lineage.Cycles
import RoleAccess.Proofs.Lineage.Turns
import RoleAccess.Session

namespace RoleAccess

namespace Roster

-- One record for each of the roles in turn and each entry in its parent list that is `id`.
def circleRecords (roster : Roster) (id : RoleId) (roles : List RoleId) : List Event :=
  roles.flatMap fun c => ((roster.parents c).filter (· = id)).map fun _ => .cycle id c

theorem map_cycle_returns (roster : Roster) (id : RoleId) (roles : List RoleId) :
    (roles.flatMap (roster.lineage.returns id)).map (.cycle id) =
      roster.circleRecords id roles := by
  unfold circleRecords
  simp only [List.map_flatMap, Lineage.returns, List.map_map, Function.comp_def]
  rfl

theorem walkEvents_eq (roster : Roster) (id : RoleId) :
    roster.walkEvents id = roster.circleRecords id (roster.lineage.reached id) := by
  rw [walkEvents, Lineage.cycles_trace, map_cycle_returns]

theorem searchEvents_eq (roster : Roster) (id ancestor : RoleId) :
    roster.searchEvents id ancestor =
      if roster.contains id ∧ roster.contains ancestor then
        roster.circleRecords id ((roster.lineage.reached id).takeWhile (· ≠ ancestor))
      else [] := by
  rw [searchEvents, Lineage.cycles_traceUntil, map_cycle_returns]

theorem circleRecords_mono {roster : Roster} {id : RoleId} {front roles : List RoleId}
    (h : front <+: roles) : roster.circleRecords id front <+: roster.circleRecords id roles := by
  obtain ⟨back, rfl⟩ := h
  unfold circleRecords
  rw [List.flatMap_append]
  exact List.prefix_append _ _

theorem searchEvents_prefix_walkEvents (roster : Roster) (id ancestor : RoleId) :
    roster.searchEvents id ancestor <+: roster.walkEvents id := by
  rw [searchEvents_eq, walkEvents_eq]
  split
  · exact circleRecords_mono (List.takeWhile_prefix _)
  · exact List.nil_prefix

theorem circleRecords_ne_nil_iff {roster : Roster} {id : RoleId} {roles : List RoleId} :
    roster.circleRecords id roles ≠ [] ↔ ∃ c ∈ roles, id ∈ roster.parents c := by
  simp [circleRecords]

theorem walkEvents_ne_nil_iff (roster : Roster) (id : RoleId) :
    roster.walkEvents id ≠ [] ↔
      Relation.TransGen (fun c p => p ∈ roster.parents c) id id := by
  rw [walkEvents_eq, circleRecords_ne_nil_iff]
  exact roster.lineage.exists_return_iff id

end Roster

namespace Session

-- A walk up from a role that goes to the end records every entry by which somebody on the way has
-- the role for a parent, and nothing else. A search records them as far as it goes.
theorem circles_recorded (s : Session) (id : RoleId) :
    ∃ turns roles, Lineage.Tour.Ends s.roster.lineage turns (.init id) roles ∧
      roles.Nodup ∧
      (∀ c, c ∈ roles ↔ Relation.ReflTransGen (fun c p => p ∈ s.roster.parents c) id c) ∧
      (∀ resource, (s.run (.tokens id resource)).events = s.roster.circleRecords id roles) ∧
      (s.run (.ancestors id)).events =
        (if s.roster.contains id then s.roster.circleRecords id roles else []) ∧
      (s.run (.allTokens id)).events =
        (if s.roster.contains id then s.roster.circleRecords id roles else []) ∧
      (s.roster.circleRecords id roles ≠ [] ↔
        Relation.TransGen (fun c p => p ∈ s.roster.parents c) id id) ∧
      ∀ ancestor,
        (s.run (.inheritsFrom id ancestor)).events <+: s.roster.circleRecords id roles ∧
        (s.run (.inheritsFrom id ancestor)).events =
          (if s.roster.contains id ∧ s.roster.contains ancestor then
            s.roster.circleRecords id (roles.takeWhile (· ≠ ancestor)) else []) := by
  have hwalk := s.roster.walkEvents_eq id
  have hknown : s.roster.knownWalkEvents id = if s.roster.contains id then
      s.roster.circleRecords id (s.roster.lineage.reached id) else [] := by
    rw [Roster.knownWalkEvents, hwalk]
  refine ⟨_, _, s.roster.lineage.ends_reached id, s.roster.lineage.nodup_reached id,
    s.roster.lineage.mem_reached_iff id, fun _ => hwalk, hknown, hknown, ?_, fun ancestor => ?_⟩
  · rw [← hwalk]
    exact s.roster.walkEvents_ne_nil_iff id
  · have hfront := s.roster.searchEvents_prefix_walkEvents id ancestor
    rw [hwalk] at hfront
    exact ⟨hfront, s.roster.searchEvents_eq id ancestor⟩

-- The lead is its own parent, and the staff has the lead for a parent twice.
def ringed : Session :=
  ⟨.default, ⟨⟨[
    (.named "lead", ⟨.text "lead", ⟨none, none, .empty, some ["lead", "staff", "ghost"]⟩⟩),
    (.named "staff", ⟨.text "staff", ⟨none, none, .empty, some ["lead", "ghost", "lead"]⟩⟩)]⟩⟩⟩

example :
    (ringed.run (.tokens (.named "lead") "posts")).events =
      [.cycle (.named "lead") (.named "lead"), .cycle (.named "lead") (.named "staff"),
        .cycle (.named "lead") (.named "staff")] ∧
    (ringed.run (.inheritsFrom (.named "lead") (.named "staff"))).events =
      [.cycle (.named "lead") (.named "lead")] := by
  decide +kernel

end Session

end RoleAccess
