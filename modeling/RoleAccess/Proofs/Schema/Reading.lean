import RoleAccess.Proofs.List.Distinct
import RoleAccess.Proofs.Table.Absorb
import RoleAccess.Roster.Configuration

namespace RoleAccess

namespace Table

variable {κ α β : Type}

theorem keys_mapValues (f : α → β) (t : Table κ α) : (t.mapValues f).keys = t.keys := by
  simp [keys, mapValues]

theorem Distinct.mapValues {t : Table κ α} (h : t.Distinct) (f : α → β) :
    (t.mapValues f).Distinct := by
  unfold Distinct
  rw [keys_mapValues]
  exact h

theorem values_mapValues (f : α → β) (t : Table κ α) :
    (t.mapValues f).values = t.values.map f := by
  simp [values, mapValues]

theorem mapValues_of_fixed {f : α → α} {t : Table κ α} (h : ∀ a ∈ t.values, f a = a) :
    t.mapValues f = t := by
  obtain ⟨es⟩ := t
  have hes : ∀ e ∈ es, (e.1, f e.2) = e := fun e he => by
    rw [h e.2 (List.mem_map_of_mem he)]
  simp only [mapValues, mk.injEq]
  exact (List.map_congr_left hes).trans (List.map_id' es)

end Table

namespace Checked

variable {α β : Type}

theorem map_eq_ok {c : Checked α} {f : α → β} {b : β} :
    Except.map f c = .ok b ↔ ∃ a, c = .ok a ∧ f a = b := by
  cases c <;> simp [Except.map]

theorem under_eq_ok {c : Checked α} {step : Step} {a : α} : c.under step = .ok a ↔ c = .ok a := by
  cases c <;> simp [under]

theorem both_eq_ok {c : Checked α} {d : Checked β} {p : α × β} :
    c.both d = .ok p ↔ c = .ok p.1 ∧ d = .ok p.2 := by
  obtain ⟨a, b⟩ := p
  cases c <;> cases d <;> simp [both]

end Checked

namespace Value

variable {α : Type} {check : Value → Checked α} {write : α → Value}

-- The check takes what is written for what it was written from.
def Reads (check : Value → Checked α) (write : α → Value) : Prop :=
  ∀ a, check (write a) = .ok a

theorem reads_text : Reads checkText text := fun _ => rfl

theorem Reads.items (h : Reads check write) (index : Nat) (as : List α) :
    Checked.items check index (as.map write) = .ok as := by
  induction as generalizing index with
  | nil => rfl
  | cons a as ih =>
      simp only [List.map_cons, Checked.items, h a, ih, Checked.under, Checked.both, Except.map]

theorem reads_texts : Reads checkTexts ofTexts := fun ts => reads_text.items 0 ts

-- Nothing is written for what is left open, and nothing else may be written in that way.
theorem Reads.option (h : Reads check write) (hwrite : ∀ a, write a ≠ .none) :
    Reads (checkOption check) (ofOption write) := by
  intro o
  cases o with
  | none => rfl
  | some a =>
      have hcheck : checkOption check (write a) = (check (write a)).map some := by
        unfold checkOption
        split
        · rename_i hnone
          exact absurd hnone (hwrite a)
        · rfl
      change checkOption check (write a) = _
      rw [hcheck, h a]
      rfl

theorem Reads.entries {β : Type} {value : Value → Checked β} {writeValue : β → Value}
    (h : Reads check write) (hvalue : Reads value writeValue) (es : List (α × β)) :
    Checked.entries check value (es.map fun e => (write e.1, writeValue e.2)) = .ok es := by
  induction es with
  | nil => rfl
  | cons e es ih =>
      simp only [List.map_cons, Checked.entries, h e.1, hvalue e.2, ih, Checked.under,
        Checked.both, Except.map]

theorem checkField_cons_self (name : String) (v : Value) (es : List (Value × Value))
    (missing : α) :
    checkField ((.text name, v) :: es) name check missing = (check v).under (.name name) := by
  simp [checkField, field?, text?]

theorem checkField_cons_ne {other name : String} (h : other ≠ name) (v : Value)
    (es : List (Value × Value)) (missing : α) :
    checkField ((.text other, v) :: es) name check missing =
      checkField es name check missing := by
  simp [checkField, field?, text?, h]

theorem checkField_ok {es : List (Value × Value)} {name : String} {missing a : α}
    (h : checkField es name check missing = .ok a) : a = missing ∨ ∃ v, check v = .ok a := by
  unfold checkField at h
  split at h
  · cases h
    exact .inl rfl
  · rename_i v _
    exact .inr ⟨v, Checked.under_eq_ok.mp h⟩

end Value

namespace Role

open Value

theorem checkPermissions_map (t : Table String (List String)) :
    checkPermissions (.map (t.entries.map fun e => (.text e.1, ofTexts e.2))) =
      .ok ((Table.ofList t.entries).mapValues List.eraseDups) := by
  simp only [checkPermissions, reads_text.entries reads_texts, Except.map]

-- A role that is written out and read again comes back with each token once.
theorem ofValue?_toValue (r : Role) :
    ofValue? r.toValue =
      .ok { r with
        permissions := (Table.ofList r.permissions.entries).mapValues List.eraseDups } := by
  have htext := reads_text.option fun _ => Value.noConfusion
  have htexts := reads_texts.option fun _ => Value.noConfusion
  have hpermissions := checkPermissions_map r.permissions
  simp [ofValue?, toValue, ofRole, checkFields, checkField_cons_self, checkField_cons_ne,
    htext _, htexts _, hpermissions, Checked.under, Checked.both, Except.map]

theorem WellFormed.permissions_reread {r : Role} (h : r.WellFormed) :
    (Table.ofList r.permissions.entries).mapValues List.eraseDups = r.permissions := by
  rw [Table.ofList_of_distinct h.resources]
  exact Table.mapValues_of_fixed fun ts hts => List.eraseDups_of_nodup (h.tokens ts hts)

theorem WellFormed.ofValue?_toValue {r : Role} (h : r.WellFormed) :
    ofValue? r.toValue = .ok r := by
  rw [Role.ofValue?_toValue, h.permissions_reread]

theorem checkPermissions_ok {v : Value} {t : Table String (List String)}
    (h : checkPermissions v = .ok t) : t.Distinct ∧ ∀ ts ∈ t.values, ts.Nodup := by
  unfold checkPermissions at h
  split at h
  · obtain ⟨es, _, rfl⟩ := Checked.map_eq_ok.mp h
    refine ⟨(Table.distinct_ofList es).mapValues _, ?_⟩
    intro ts hts
    rw [Table.values_mapValues] at hts
    obtain ⟨us, _, rfl⟩ := List.mem_map.mp hts
    exact List.nodup_eraseDups us
  · cases h

theorem checkFields_ok {es : List (Value × Value)} {r : Role} (h : checkFields es = .ok r) :
    r.WellFormed := by
  unfold checkFields at h
  obtain ⟨⟨name, description, permissions, inherits⟩, hboth, rfl⟩ := Checked.map_eq_ok.mp h
  have hpermissions := (Checked.both_eq_ok.mp
    (Checked.both_eq_ok.mp (Checked.both_eq_ok.mp hboth).2).2).1
  rcases checkField_ok hpermissions with rfl | ⟨v, hv⟩
  · exact ⟨List.nodup_nil, by simp [Table.values, Table.empty]⟩
  · exact ⟨(checkPermissions_ok hv).1, (checkPermissions_ok hv).2⟩

-- A role as it comes from the check of a written definition.
def Validated (r : Role) : Prop := ∃ es, ofValue? (.map es) = .ok r

theorem validated_iff_wellFormed (r : Role) : r.Validated ↔ r.WellFormed := by
  constructor
  · rintro ⟨es, h⟩
    exact checkFields_ok h
  · intro h
    exact ⟨_, h.ofValue?_toValue⟩

end Role

end RoleAccess
