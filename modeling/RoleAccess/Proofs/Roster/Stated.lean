import RoleAccess.Proofs.Roster.Merge
import RoleAccess.Proofs.Schema.Written

namespace RoleAccess

namespace Definitions

-- Definitions that are valid one by one are valid together.
theorem check_of_ok {write : Role → Value} {roles : List Filed}
    (h : ∀ filed ∈ roles, Role.ofValue? (write filed.role) = .ok filed.role) :
    check (roles.map fun filed => ⟨filed.key, write filed.role⟩) = .ok roles := by
  induction roles with
  | nil => rfl
  | cons filed roles ih =>
      obtain ⟨hfiled, hroles⟩ := List.forall_mem_cons.mp h
      rw [List.map_cons, check_cons_of_ok hfiled, ih hroles]
      rfl

end Definitions

namespace Roster

-- A roster that a configuration says in full. Each role comes where its key is first, and is the
-- one that the last definition under that key states.
structure StatedBy (roster : Roster) (entries : List (Value × Value)) : Prop where
  ids : roster.ids = (entries.map fun e => RoleId.ofKey e.1).eraseDups
  role : ∀ front key body back, entries = front ++ (key, body) :: back →
    RoleId.ofKey key ∉ back.map (fun e => RoleId.ofKey e.1) →
    ∃ role, roster.get? (RoleId.ofKey key) = some role ∧ role.StatedBy body

theorem ids_ofFiled (roles : List Filed) :
    (ofFiled roles).ids = (roles.map fun filed => RoleId.ofKey filed.key).eraseDups := by
  have hkeys := Table.keys_absorb_of_distinct supersede Table.distinct_empty
    ⟨roles.map fun filed => (RoleId.ofKey filed.key, filed)⟩
  simp only [Table.keys, Table.empty, List.map_nil, List.nil_append, List.map_map,
    Function.comp_def] at hkeys
  exact hkeys

theorem get?_ofFiled_last (front : List Filed) (filed : Filed) {back : List Filed}
    (h : RoleId.ofKey filed.key ∉ back.map fun later => RoleId.ofKey later.key) :
    (ofFiled (front ++ filed :: back)).get? (RoleId.ofKey filed.key) = some filed.role := by
  have hback : RoleId.ofKey filed.key ∉
      (back.map fun later => (RoleId.ofKey later.key, later)).map (·.1) := by
    simpa [Function.comp_def] using h
  obtain ⟨held, hheld⟩ := Table.get?_absorb_last supersede .empty
    (front.map fun later => (RoleId.ofKey later.key, later)) _ filed hback
  unfold get? ofFiled
  rw [List.map_append, List.map_cons, hheld]
  rfl

theorem map_ofKey_of_checked {es : List (Value × Value)} {roles : List Filed}
    (h : List.Forall₂ (fun e filed => filed.key = e.1 ∧ Role.ofValue? e.2 = .ok filed.role)
      es roles) :
    roles.map (fun filed => RoleId.ofKey filed.key) = es.map fun e => RoleId.ofKey e.1 := by
  induction h with
  | nil => rfl
  | cons hhead _ ih => rw [List.map_cons, List.map_cons, hhead.1, ih]

theorem statedBy_of_ofValue? {entries : List (Value × Value)} {roster : Roster}
    (h : ofValue? (.map entries) = .ok roster) : roster.StatedBy entries := by
  obtain ⟨_, roles, ⟨⟩, hroles, rfl⟩ := ofValue?_ok h
  constructor
  · rw [ids_ofFiled, map_ofKey_of_checked hroles]
  · rintro front key body back rfl hlast
    obtain ⟨first, filed, last, rfl, ⟨rfl, hbody⟩, hback⟩ := hroles.split_left
    rw [← map_ofKey_of_checked hback] at hlast
    exact ⟨filed.role, get?_ofFiled_last first filed hlast, Role.statedBy_of_ofValue? hbody⟩

-- The configuration that lists all roles, each one written by `write`.
def toValue (write : Role → Value) (roster : Roster) : Value :=
  .map (roster.roles.values.map fun filed => (filed.key, write filed.role))

-- It reads as the roster again, whether the roles are listed as they are or written out.
theorem WellFormed.ofValue?_toValue {roster : Roster} (h : roster.WellFormed)
    {write : Role → Value}
    (hwrite : ∀ filed ∈ roster.roles.values, Role.ofValue? (write filed.role) = .ok filed.role) :
    ofValue? (roster.toValue write) = .ok roster := by
  have hentries : roster.roles.values.map (fun filed => (RoleId.ofKey filed.key, filed)) =
      roster.roles.entries := by
    unfold Table.values
    rw [List.map_map]
    refine (List.map_congr_left fun e he => ?_).trans (List.map_id' roster.roles.entries)
    rw [Function.comp_apply, h.keys e he]
  have hroles : ofFiled roster.roles.values = roster := by
    unfold ofFiled
    rw [hentries]
    exact congrArg Roster.mk (Table.empty_absorb h.ids fun _ _ => rfl)
  unfold toValue
  rw [ofValue?_map, List.map_map]
  have hcheck := Definitions.check_of_ok hwrite
  simp only [Function.comp_def, hcheck, Except.map, hroles]

theorem vetted_toValue {roster : Roster} (h : roster.WellFormed) {write : Role → Value}
    (hwrite : ∀ role r, write role = .role r → r = role) : (roster.toValue write).Vetted := by
  rintro es ⟨⟩ e he r hr
  obtain ⟨filed, hfiled, rfl⟩ := List.mem_map.mp he
  rw [hwrite filed.role r hr, Role.validated_iff_wellFormed]
  exact h.roles filed hfiled

end Roster

end RoleAccess
