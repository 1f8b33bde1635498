import RoleAccess.Proofs.Roster.Configuration

namespace RoleAccess

namespace Role

theorem WellFormed.nodup_entry {r : Role} (h : r.WellFormed) :
    ∀ e ∈ r.permissions.entries, e.2.Nodup :=
  fun e he => h.tokens e.2 (List.mem_map_of_mem he)

theorem nodup_addTokens (held : Option (List String)) (new : List String) :
    (addTokens held new).Nodup := List.nodup_eraseDups _

theorem nodup_absorb_addTokens {t : Table String (List String)}
    (h : ∀ e ∈ t.entries, e.2.Nodup) (new : Table String (List String)) :
    ∀ e ∈ (t.absorb addTokens new).entries, e.2.Nodup :=
  Table.forall_entries_absorb (P := fun _ ts => ts.Nodup) h
    fun e _ held _ => nodup_addTokens held e.2

-- What comes in is never put twice, so only the role held before has to be well-formed.
theorem WellFormed.merge {old : Role} (h : old.WellFormed) (new : Role) :
    (old.merge new).WellFormed where
  resources := h.resources.absorb _ _
  tokens := by
    intro ts hts
    obtain ⟨e, he, rfl⟩ := List.mem_map.mp hts
    exact nodup_absorb_addTokens h.nodup_entry new.permissions e he

end Role

namespace Roster

theorem wellFormed_empty : empty.WellFormed where
  ids := List.nodup_nil
  keys := by simp [empty, Table.empty]
  roles := by simp [empty, Table.empty, Table.values]

theorem WellFormed.role {roster : Roster} (h : roster.WellFormed) {id : RoleId} {filed : Filed}
    (hid : roster.roles.get? id = some filed) : filed.role.WellFormed :=
  h.roles filed (List.mem_map_of_mem (Table.mem_entries_of_get? hid))

-- Every entry of a well-formed roster is filed under what its key says and holds a role that
-- is well-formed itself.
def Sound (id : RoleId) (filed : Filed) : Prop :=
  RoleId.ofKey filed.key = id ∧ filed.role.WellFormed

theorem wellFormed_iff (roster : Roster) :
    roster.WellFormed ↔
      roster.roles.Distinct ∧ ∀ e ∈ roster.roles.entries, Sound e.1 e.2 := by
  constructor
  · intro h
    exact ⟨h.ids, fun e he => ⟨h.keys e he, h.roles e.2 (List.mem_map_of_mem he)⟩⟩
  · rintro ⟨hids, hsound⟩
    refine ⟨hids, fun e he => (hsound e he).1, ?_⟩
    intro filed hfiled
    obtain ⟨e, he, rfl⟩ := List.mem_map.mp hfiled
    exact (hsound e he).2

theorem WellFormed.merge {roster update : Roster} (h : roster.WellFormed)
    (hupdate : update.WellFormed) : (roster.merge update).WellFormed := by
  rw [wellFormed_iff] at *
  refine ⟨h.1.absorb _ _, Table.forall_entries_absorb h.2 ?_⟩
  intro e he held hheld
  cases held with
  | none => exact hupdate.2 e he
  | some filed =>
      obtain ⟨hkey, hrole⟩ := hheld filed rfl
      exact ⟨hkey, hrole.merge e.2.role⟩

theorem wellFormed_ofFiled {roles : List Filed} (h : ∀ filed ∈ roles, filed.role.WellFormed) :
    (ofFiled roles).WellFormed := by
  rw [wellFormed_iff]
  refine ⟨distinct_ofFiled roles, Table.forall_entries_absorb (by simp [Table.empty]) ?_⟩
  intro e he held hheld
  obtain ⟨filed, hfiled, rfl⟩ := List.mem_map.mp he
  cases held with
  | none => exact ⟨rfl, h filed hfiled⟩
  | some first => exact ⟨(hheld first rfl).1, h filed hfiled⟩

theorem wellFormed_of_ofValue? {configuration : Value} {roster : Roster}
    (hvetted : configuration.Vetted) (h : ofValue? configuration = .ok roster) :
    roster.WellFormed := by
  obtain ⟨es, roles, rfl, hroles, rfl⟩ := ofValue?_ok h
  refine wellFormed_ofFiled fun filed hfiled => ?_
  obtain ⟨e, he, -, hbody⟩ := hroles.exists_of_mem_right hfiled
  cases hvalue : e.2 with
  | role r =>
      rw [hvalue] at hbody
      cases hbody
      exact (Role.validated_iff_wellFormed _).mp (hvetted es rfl e he _ hvalue)
  | map fields =>
      rw [hvalue] at hbody
      exact (Role.validated_iff_wellFormed _).mp ⟨fields, hbody⟩
  | _ =>
      rw [hvalue] at hbody
      cases hbody

theorem wellFormed_of_create? {configuration : Value} {roster : Roster}
    (hvetted : configuration.Vetted) (h : create? configuration = .ok roster) :
    roster.WellFormed := by
  unfold create? at h
  by_cases htruthy : configuration.truthy = true
  · rw [if_pos htruthy] at h
    exact wellFormed_of_ofValue? hvetted h
  · rw [if_neg htruthy] at h
    cases h
    exact wellFormed_empty

end Roster

end RoleAccess
