import RoleAccess.Proofs.Schema.Reading
import RoleAccess.Proofs.Schema.Refusal
import RoleAccess.Roster.Configuration
import Mathlib.Data.List.Forall2

theorem List.Forall₂.exists_of_mem_right {α β : Type} {R : α → β → Prop} {as : List α}
    {bs : List β} (h : List.Forall₂ R as bs) {b : β} (hb : b ∈ bs) : ∃ a ∈ as, R a b := by
  induction h with
  | nil => exact False.elim (List.not_mem_nil hb)
  | cons hab _ ih =>
      rcases List.mem_cons.mp hb with rfl | hmem
      · exact ⟨_, List.mem_cons_self, hab⟩
      · obtain ⟨a, ha, hr⟩ := ih hmem
        exact ⟨a, List.mem_cons_of_mem _ ha, hr⟩

-- What stands in the middle on one side has its counterpart in the middle of the other.
theorem List.Forall₂.split_left {α β : Type} {R : α → β → Prop} {front back : List α} {a : α}
    {bs : List β} (h : List.Forall₂ R (front ++ a :: back) bs) :
    ∃ first b last, bs = first ++ b :: last ∧ R a b ∧ List.Forall₂ R back last := by
  induction front generalizing bs with
  | nil =>
      cases h with
      | cons hab hback => exact ⟨[], _, _, rfl, hab, hback⟩
  | cons x front ih =>
      cases h with
      | @cons _ y _ bs _ hrest =>
          obtain ⟨first, b, last, rfl, hab, hback⟩ := ih hrest
          exact ⟨y :: first, b, last, rfl, hab, hback⟩

namespace RoleAccess

namespace Definitions

theorem check_cons_of_error {d : Definition} {issues : List Issue}
    (h : Role.ofValue? d.body = .error issues) (ds : Definitions) :
    check (d :: ds) = .error (.invalidRole d.key issues) := by
  rw [check, h]

theorem check_cons_of_ok {d : Definition} {role : Role} (h : Role.ofValue? d.body = .ok role)
    (ds : Definitions) : check (d :: ds) = (check ds).map (⟨d.key, role⟩ :: ·) := by
  rw [check, h]
  cases check ds <;> rfl

theorem check_ok {ds : Definitions} {roles : List Filed} (h : check ds = .ok roles) :
    List.Forall₂ (fun d filed => filed.key = d.key ∧ Role.ofValue? d.body = .ok filed.role)
      ds roles := by
  induction ds generalizing roles with
  | nil =>
      cases h
      exact .nil
  | cons d ds ih =>
      cases hd : Role.ofValue? d.body with
      | error issues =>
          rw [check_cons_of_error hd] at h
          cases h
      | ok role =>
          rw [check_cons_of_ok hd] at h
          cases hds : check ds with
          | error e =>
              rw [hds] at h
              cases h
          | ok rest =>
              rw [hds] at h
              cases h
              exact .cons ⟨rfl, hd⟩ (ih hds)

-- Where a check ends in an error, it is the first definition that is not valid which says why.
theorem check_error {ds : Definitions} {e : ConfigurationError} (h : check ds = .error e) :
    ∃ front d back issues, ds = front ++ d :: back ∧
      (∀ x ∈ front, ∃ r, Role.ofValue? x.body = .ok r) ∧
      Role.ofValue? d.body = .error issues ∧ e = .invalidRole d.key issues := by
  induction ds with
  | nil => cases h
  | cons d ds ih =>
      cases hd : Role.ofValue? d.body with
      | error issues =>
          rw [check_cons_of_error hd] at h
          cases h
          exact ⟨[], d, ds, issues, rfl, by simp, hd, rfl⟩
      | ok role =>
          rw [check_cons_of_ok hd] at h
          cases hds : check ds with
          | ok rest =>
              rw [hds] at h
              cases h
          | error e' =>
              rw [hds] at h
              cases h
              obtain ⟨front, x, back, issues, rfl, hfront, hx⟩ := ih hds
              refine ⟨d :: front, x, back, issues, rfl, ?_, hx⟩
              intro y hy
              rcases List.mem_cons.mp hy with rfl | hmem
              · exact ⟨role, hd⟩
              · exact hfront y hmem

end Definitions

namespace Value

-- The roles that stand ready in a configuration are as a check built them.
def Vetted (configuration : Value) : Prop :=
  ∀ es, configuration = .map es → ∀ e ∈ es, ∀ r, e.2 = .role r → r.Validated

-- What an error says of the configuration it refuses: it is no map, or the definition under the
-- key is the first one that is not valid, and the issues are all that is wrong with it.
inductive Refused : Value → ConfigurationError → Prop where
  | notMap (configuration : Value) (h : ∀ es, configuration ≠ .map es) :
    Refused configuration (.notMap configuration.kind)
  | invalidRole (front back : List (Value × Value)) (key body : Value) (issues : List Issue)
    (hfront : ∀ e ∈ front, ∃ r, Role.ofValue? e.2 = .ok r)
    (hbody : Role.ofValue? body = .error issues) (hissues : issues ≠ []) :
    Refused (.map (front ++ (key, body) :: back)) (.invalidRole key issues)

end Value

namespace Roster

theorem ofValue?_map (es : List (Value × Value)) :
    ofValue? (.map es) = (Definitions.check (es.map fun e => ⟨e.1, e.2⟩)).map ofFiled := by
  simp only [ofValue?, Definitions.ofValue?, ofDefinitions?]
  cases Definitions.check (es.map fun e => ⟨e.1, e.2⟩) <;> rfl

theorem ofValue?_of_not_map {configuration : Value} (h : ∀ es, configuration ≠ .map es) :
    ofValue? configuration = .error (.notMap configuration.kind) := by
  cases configuration with
  | map es => exact absurd rfl (h es)
  | _ => rfl

theorem ofValue?_ok {configuration : Value} {roster : Roster}
    (h : ofValue? configuration = .ok roster) :
    ∃ es roles, configuration = .map es ∧
      List.Forall₂ (fun e filed => filed.key = e.1 ∧ Role.ofValue? e.2 = .ok filed.role) es roles ∧
      roster = ofFiled roles := by
  by_cases hmap : ∃ es, configuration = .map es
  · obtain ⟨es, rfl⟩ := hmap
    rw [ofValue?_map] at h
    cases hroles : Definitions.check (es.map fun e => ⟨e.1, e.2⟩) with
    | error e =>
        rw [hroles] at h
        cases h
    | ok roles =>
        rw [hroles] at h
        cases h
        have hchecked := Definitions.check_ok hroles
        rw [List.forall₂_map_left_iff] at hchecked
        exact ⟨es, roles, rfl, hchecked, rfl⟩
  · rw [ofValue?_of_not_map (not_exists.mp hmap)] at h
    cases h

theorem ofValue?_error {configuration : Value} {e : ConfigurationError}
    (h : ofValue? configuration = .error e) : configuration.Refused e := by
  by_cases hmap : ∃ es, configuration = .map es
  · obtain ⟨es, rfl⟩ := hmap
    rw [ofValue?_map] at h
    cases hroles : Definitions.check (es.map fun e => ⟨e.1, e.2⟩) with
    | ok roles =>
        rw [hroles] at h
        cases h
    | error first =>
        rw [hroles] at h
        cases h
        obtain ⟨front, d, back, issues, hsplit, hfront, hbody, rfl⟩ :=
          Definitions.check_error hroles
        obtain ⟨front, rest, rfl, rfl, hrest⟩ := List.map_eq_append_iff.mp hsplit
        obtain ⟨entry, back, rfl, rfl, rfl⟩ := List.map_eq_cons_iff.mp hrest
        refine .invalidRole front back entry.1 entry.2 issues ?_ hbody
          (Role.justified_ofValue? _ issues hbody)
        intro x hx
        exact hfront _ (List.mem_map_of_mem hx)
  · rw [ofValue?_of_not_map (not_exists.mp hmap)] at h
    cases h
    exact .notMap configuration (not_exists.mp hmap)

theorem ofValue?_error_iff {configuration : Value} :
    (∃ e, ofValue? configuration = .error e) ↔
      (∀ es, configuration ≠ .map es) ∨
        ∃ es, configuration = .map es ∧
          ∃ e ∈ es, ∃ issues, Role.ofValue? e.2 = .error issues := by
  constructor
  · rintro ⟨e, h⟩
    cases ofValue?_error h with
    | notMap _ hmap => exact .inl hmap
    | invalidRole front back key body issues _ hbody _ =>
        exact .inr ⟨_, rfl, (key, body), by simp, issues, hbody⟩
  · intro hbad
    cases h : ofValue? configuration with
    | error e => exact ⟨e, rfl⟩
    | ok roster =>
        obtain ⟨es, roles, rfl, hroles, -⟩ := ofValue?_ok h
        rcases hbad with hmap | ⟨es', hes', e, he, issues, hissues⟩
        · exact absurd rfl (hmap es)
        · cases hes'
          obtain ⟨filed, -, -, hok⟩ := hroles.flip.exists_of_mem_right he
          rw [hissues] at hok
          cases hok

theorem distinct_ofFiled (roles : List Filed) : (ofFiled roles).roles.Distinct :=
  Table.distinct_empty.absorb _ _

theorem distinct_of_ofValue? {configuration : Value} {roster : Roster}
    (h : ofValue? configuration = .ok roster) : roster.roles.Distinct := by
  obtain ⟨_, roles, -, -, rfl⟩ := ofValue?_ok h
  exact distinct_ofFiled roles

end Roster

end RoleAccess
