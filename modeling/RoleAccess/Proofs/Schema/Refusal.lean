import RoleAccess.Roster.Configuration

namespace RoleAccess

namespace Checked

variable {α β : Type}

-- A refusal names at least one issue.
def Justified (c : Checked α) : Prop := ∀ issues, c = .error issues → issues ≠ []

theorem justified_ok (a : α) : Justified (.ok a) := by
  intro issues h
  cases h

theorem justified_fail (problem : Problem) : (fail problem : Checked α).Justified := by
  rintro issues ⟨⟩
  exact List.cons_ne_nil _ _

theorem Justified.map {c : Checked α} (h : c.Justified) (f : α → β) :
    Justified (Except.map f c) := by
  intro issues hc
  cases c with
  | ok a => cases hc
  | error first =>
      cases hc
      exact h issues rfl

theorem Justified.under {c : Checked α} (h : c.Justified) (step : Step) :
    (c.under step).Justified := by
  intro issues hc
  cases c with
  | ok a => cases hc
  | error first =>
      cases hc
      simpa using h first rfl

theorem Justified.both {c : Checked α} {d : Checked β} (hc : c.Justified) (hd : d.Justified) :
    (c.both d).Justified := by
  intro issues h
  cases c with
  | ok a =>
      cases d with
      | ok b => cases h
      | error second =>
          cases h
          exact hd issues rfl
  | error first =>
      have hfirst := hc first rfl
      cases d with
      | ok b =>
          cases h
          exact hfirst
      | error second =>
          cases h
          exact List.append_ne_nil_of_left_ne_nil hfirst second

variable {check : Value → Checked α} {value : Value → Checked β}

theorem justified_items (h : ∀ v, (check v).Justified) (index : Nat) (vs : List Value) :
    (items check index vs).Justified := by
  induction vs generalizing index with
  | nil => exact justified_ok []
  | cons v vs ih => exact (((h v).under _).both (ih _)).map _

theorem justified_entries (hkey : ∀ v, (check v).Justified) (hvalue : ∀ v, (value v).Justified)
    (es : List (Value × Value)) : (entries check value es).Justified := by
  induction es with
  | nil => exact justified_ok []
  | cons e es ih =>
      have hentry := (((hkey e.1).under .key).both (hvalue e.2)).under (.ofKey e.1)
      exact (hentry.both ih).map _

end Checked

namespace Value

open Checked

variable {α : Type} {check : Value → Checked α}

theorem justified_checkText (v : Value) : v.checkText.Justified := by
  unfold checkText
  split
  · exact justified_ok _
  · exact justified_ok _
  · split
    · exact justified_ok _
    · exact justified_fail _
  · exact justified_fail _

theorem justified_checkTexts (v : Value) : v.checkTexts.Justified := by
  unfold checkTexts
  split
  · exact justified_items justified_checkText _ _
  · exact justified_fail _

theorem justified_checkOption (h : ∀ v, (check v).Justified) (v : Value) :
    (checkOption check v).Justified := by
  unfold checkOption
  split
  · exact justified_ok _
  · exact (h _).map _

theorem justified_checkField (h : ∀ v, (check v).Justified) (entries : List (Value × Value))
    (name : String) (missing : α) : (checkField entries name check missing).Justified := by
  unfold checkField
  split
  · exact justified_ok _
  · exact (h _).under _

end Value

namespace Role

open Checked Value

theorem justified_checkPermissions (v : Value) : (checkPermissions v).Justified := by
  unfold checkPermissions
  split
  · exact (justified_entries justified_checkText justified_checkTexts _).map _
  · exact justified_fail _

theorem justified_ofValue? (v : Value) : (ofValue? v).Justified := by
  unfold ofValue?
  split
  · exact justified_ok _
  · have htext := justified_checkField (justified_checkOption justified_checkText)
    have htexts := justified_checkField (justified_checkOption justified_checkTexts)
    have hpermissions := justified_checkField justified_checkPermissions
    exact ((htext _ _ _).both ((htext _ _ _).both ((hpermissions _ _ _).both
      (htexts _ _ _)))).map _
  · exact justified_fail _

end Role

end RoleAccess
