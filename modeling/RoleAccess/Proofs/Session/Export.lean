import RoleAccess.Proofs.Session.Batching

namespace RoleAccess

namespace Roster

variable {roster : Roster}

-- The configuration that is put together from what a roster tells: each of its keys in turn, with
-- the definition that it gives for the key.
def exported (write : Role → Value) (roster : Roster) : Value :=
  .map (roster.keys.filterMap fun key =>
    (roster.get? (.ofKey key)).map fun role => (key, write role))

theorem WellFormed.get?_ofKey (h : roster.WellFormed) {e : RoleId × Filed}
    (he : e ∈ roster.roles.entries) : roster.get? (.ofKey e.2.key) = some e.2.role := by
  unfold get?
  rw [h.keys e he, h.ids.get?_of_mem he]
  rfl

-- Every key leads to the role that is filed under it, so that nobody is left out.
theorem WellFormed.exported_eq (h : roster.WellFormed) (write : Role → Value) :
    roster.exported write = roster.toValue write := by
  have hentry : ∀ e ∈ roster.roles.entries,
      (roster.get? (.ofKey e.2.key)).map (fun role => (e.2.key, write role)) =
        some (e.2.key, write e.2.role) := by
    intro e he
    rw [h.get?_ofKey he]
    rfl
  unfold exported toValue Roster.keys Table.values
  simp only [List.map_map, List.filterMap_map, Function.comp_def]
  rw [List.filterMap_congr hentry, List.filterMap_eq_map']

theorem countNew_self (roster : Roster) : roster.countNew roster = 0 := by
  unfold countNew
  rw [List.countP_eq_zero]
  intro id hid
  have hknown : roster.contains id = true := (roster.roles.contains_iff id).mpr hid
  simp [hknown]

end Roster

namespace Session

-- What a configuration leads to that says the same as the roster in use: a session started from it
-- and a roster replaced by it hold just these roles, and merging it in, be it role by role, changes
-- none of them.
structure Restores (s : Session) (configuration : Value) : Prop where
  read : Roster.ofValue? configuration = .ok s.roster
  starts : ∀ settings, (start? settings configuration).1 = .ok ⟨settings, s.roster⟩
  replaces : ∀ t : Session, (t.run (.replace configuration)).answer = .ok .done ∧
    (t.run (.replace configuration)).session = { t with roster := s.roster }
  merges : s.Takes [configuration] s
  mergesInPlace : s.roster.mergeInPlace s.roster = (.ok (), ⟨s.roster, 0, s.roster.size⟩)

theorem restores_of_describes {s : Session} {configuration : Value}
    (h : configuration.Describes s.roster) : s.Restores configuration := by
  have hwell := h.wellFormed
  refine ⟨h.read, ?_, ?_, ?_, ?_⟩
  · intro settings
    rw [start?_of_ok (Roster.create?_of_ofValue? h.read)]
  · intro t
    exact ⟨change_answer_of_ok h.read t false .done, change_session_of_ok h.read t false .done⟩
  · have htakes := takes_one h s
    rwa [hwell.merge_self] at htakes
  · rw [Roster.mergeInPlace_eq hwell hwell.ids, hwell.merge_self, Roster.countNew_self,
      Nat.sub_zero]

-- Whatever has become of a roster, it can be written down and read again. The roles may be listed
-- as they are or spelled out field by field.
theorem exported_restores (s : Session) (hs : s.Reachable) :
    ∀ write ∈ [Value.role, Role.toValue], s.Restores (s.roster.exported write) := by
  intro write hwrite
  rw [hs.wellFormed.exported_eq]
  exact restores_of_describes (hs.wellFormed.describes_toValue write hwrite)

-- A session in which one role has an empty name, a resource without tokens and an empty list of
-- parents, and the other one has neither name nor resources.
def revisedStaff : Session := (staffed.run (.merge revision)).session

theorem revisedStaff_reachable : revisedStaff.Reachable := by
  refine .run _ _ staffed_reachable ?_
  rintro _ ⟨⟩
  exact revision_describes.vetted

theorem exported_restores_revisedStaff :
    revisedStaff.roster.ownName (.named "staff") = some "" ∧
    revisedStaff.roster.resources (.named "staff") = ["posts", "drafts"] ∧
    revisedStaff.Restores (revisedStaff.roster.exported Value.role) ∧
    revisedStaff.Restores (revisedStaff.roster.exported Role.toValue) := by
  have hrestores := exported_restores revisedStaff revisedStaff_reachable
  exact ⟨rfl, rfl, hrestores _ List.mem_cons_self, hrestores _ (by simp)⟩

end Session

end RoleAccess
