import RoleAccess.Proofs.Role.Merge

namespace RoleAccess.Roster

-- The display name and the parents of a role, where they are configured.
def ownName (roster : Roster) (id : RoleId) : Option String := (roster.get? id).bind (·.name)

def ownParents (roster : Roster) (id : RoleId) : Option (List String) :=
  (roster.get? id).bind (·.inherits)

theorem parents_eq (roster : Roster) (id : RoleId) :
    roster.parents id = ((roster.ownParents id).getD []).map .named := by
  unfold parents ownParents
  cases roster.get? id <;> rfl

theorem WellFormed.role_of_get? {roster : Roster} (h : roster.WellFormed) {id : RoleId}
    {role : Role} (hid : roster.get? id = some role) : role.WellFormed := by
  obtain ⟨filed, hfiled, rfl⟩ := Option.map_eq_some_iff.mp hid
  exact h.role hfiled

theorem ids_merge (roster : Roster) {update : Roster} (h : update.roles.Distinct) :
    (roster.merge update).ids =
      roster.ids ++ update.ids.filter fun id => !roster.contains id :=
  Table.keys_absorb adopt roster.roles h

theorem contains_merge (roster : Roster) {update : Roster} (h : update.roles.Distinct)
    (id : RoleId) :
    (roster.merge update).contains id = (roster.contains id || update.contains id) :=
  Table.contains_absorb adopt roster.roles h id

-- A role that is updated keeps the key it was first filed under.
theorem keys_merge (roster : Roster) {update : Roster} (h : update.roles.Distinct) :
    (roster.merge update).keys =
      roster.keys ++
        (update.roles.entries.filter fun e => !roster.contains e.1).map (·.2.key) := by
  have hkeys := Table.map_entries_absorb (g := fun e : RoleId × Filed => e.2.key) (f := adopt)
    (fun _ _ _ => rfl) roster.roles h
  unfold keys Table.values
  rw [List.map_map, List.map_map]
  exact hkeys

theorem get?_merge (roster : Roster) {update : Roster} (h : update.roles.Distinct)
    (id : RoleId) :
    (roster.merge update).get? id =
      (update.get? id).elim (roster.get? id) fun new =>
        some ((roster.get? id).elim new (·.merge new)) := by
  unfold get? merge
  rw [Table.get?_absorb _ _ h]
  cases update.roles.get? id with
  | none => rfl
  | some new => cases roster.roles.get? id <;> rfl

-- What is replaced where an update supplies it and kept where it does not.
theorem bind_get?_merge {α : Type} {field : Role → Option α}
    (hfield : ∀ old new, field (old.merge new) = (field new).or (field old)) (roster : Roster)
    {update : Roster} (h : update.roles.Distinct) (id : RoleId) :
    ((roster.merge update).get? id).bind field =
      ((update.get? id).bind field).or ((roster.get? id).bind field) := by
  rw [get?_merge roster h]
  cases update.get? id with
  | none => simp
  | some new => cases roster.get? id <;> simp [hfield]

theorem ownName_merge (roster : Roster) {update : Roster} (h : update.roles.Distinct)
    (id : RoleId) :
    (roster.merge update).ownName id = (update.ownName id).or (roster.ownName id) :=
  roster.bind_get?_merge (fun _ _ => rfl) h id

theorem description_merge (roster : Roster) {update : Roster} (h : update.roles.Distinct)
    (id : RoleId) :
    (roster.merge update).description id =
      (update.description id).or (roster.description id) :=
  roster.bind_get?_merge (fun _ _ => rfl) h id

theorem ownParents_merge (roster : Roster) {update : Roster} (h : update.roles.Distinct)
    (id : RoleId) :
    (roster.merge update).ownParents id =
      (update.ownParents id).or (roster.ownParents id) :=
  roster.bind_get?_merge (fun _ _ => rfl) h id

theorem resources_merge (roster : Roster) {update : Roster} (h : update.WellFormed)
    (id : RoleId) :
    (roster.merge update).resources id =
      roster.resources id ++ (update.resources id).filter (· ∉ roster.resources id) := by
  unfold resources permissions
  rw [get?_merge roster h.ids]
  cases hnew : update.get? id with
  | none => simp [Table.empty, Table.keys]
  | some new =>
      cases roster.get? id with
      | none => simp [Table.empty, Table.keys]
      | some old => exact old.resources_merge (h.role_of_get? hnew).resources

theorem directTokens_merge {roster update : Roster} (hroster : roster.WellFormed)
    (h : update.WellFormed) (id : RoleId) (resource : String) :
    (roster.merge update).directTokens id resource =
      roster.directTokens id resource ++
        (update.directTokens id resource).filter (· ∉ roster.directTokens id resource) := by
  unfold directTokens
  rw [get?_merge roster h.ids]
  cases hnew : update.get? id with
  | none => simp
  | some new =>
      cases hold : roster.get? id with
      | none => simp
      | some old =>
          exact Role.tokens_merge (hroster.role_of_get? hold) (h.role_of_get? hnew) resource

theorem mem_directTokens_merge (roster : Roster) {update : Roster} (h : update.WellFormed)
    (id : RoleId) (resource token : String) :
    token ∈ (roster.merge update).directTokens id resource ↔
      token ∈ roster.directTokens id resource ∨ token ∈ update.directTokens id resource := by
  unfold directTokens
  rw [get?_merge roster h.ids]
  cases hnew : update.get? id with
  | none => simp
  | some new =>
      cases roster.get? id with
      | none => simp
      | some old => exact old.mem_tokens_merge (h.role_of_get? hnew).resources resource token

theorem merge_empty (roster : Roster) : roster.merge empty = roster := rfl

variable {a b c : Roster}

theorem WellFormed.merge_assoc (ha : a.WellFormed) (hb : b.WellFormed) (hc : c.WellFormed) :
    (a.merge b).merge c = a.merge (b.merge c) := by
  have hboth : ∀ id new next, b.roles.get? id = some new → c.roles.get? id = some next →
      adopt (some (adopt (a.roles.get? id) new)) next =
        adopt (a.roles.get? id) (adopt (some new) next) := by
    intro id new next hnew hnext
    cases hold : a.roles.get? id with
    | none => rfl
    | some old =>
        have hroles := (ha.role hold).merge_assoc (hb.role hnew) (hc.role hnext)
        simp only [adopt, Option.elim_some, hroles]
  exact congrArg Roster.mk (Table.absorb_assoc ha.ids hb.ids hc.ids hboth fun _ _ _ => rfl)

theorem WellFormed.merge_again (ha : a.WellFormed) (hb : b.WellFormed) :
    (a.merge b).merge b = a.merge b := by
  have hagain : ∀ id new, b.roles.get? id = some new →
      adopt (some (adopt (a.roles.get? id) new)) new = adopt (a.roles.get? id) new := by
    intro id new hnew
    cases hold : a.roles.get? id with
    | none => simp only [adopt, Option.elim_some, Option.elim_none, (hb.role hnew).merge_self]
    | some old =>
        simp only [adopt, Option.elim_some, (ha.role hold).merge_again (hb.role hnew)]
  exact congrArg Roster.mk (Table.absorb_self ha.ids hb.ids hagain)

theorem empty_merge (h : a.roles.Distinct) : empty.merge a = a :=
  congrArg Roster.mk (Table.empty_absorb h fun _ _ => rfl)

theorem WellFormed.merge_self (ha : a.WellFormed) : a.merge a = a := by
  have hagain := wellFormed_empty.merge_again ha
  rwa [empty_merge ha.ids] at hagain

end RoleAccess.Roster
