import RoleAccess.Proofs.Schema.Reading
import RoleAccess.Proofs.Table.Laws
import Mathlib.Data.List.Forall2

namespace RoleAccess

namespace Checked

variable {α β : Type} {check : Value → Checked α} {value : Value → Checked β}

theorem items_ok {index : Nat} {vs : List Value} {as : List α}
    (h : items check index vs = .ok as) : List.Forall₂ (fun v a => check v = .ok a) vs as := by
  induction vs generalizing index as with
  | nil =>
      cases h
      exact .nil
  | cons v vs ih =>
      obtain ⟨⟨a, rest⟩, hboth, rfl⟩ := map_eq_ok.mp h
      obtain ⟨ha, hrest⟩ := both_eq_ok.mp hboth
      exact .cons (under_eq_ok.mp ha) (ih hrest)

theorem entries_ok {es : List (Value × Value)} {ps : List (α × β)}
    (h : entries check value es = .ok ps) :
    List.Forall₂ (fun e p => check e.1 = .ok p.1 ∧ value e.2 = .ok p.2) es ps := by
  induction es generalizing ps with
  | nil =>
      cases h
      exact .nil
  | cons e es ih =>
      obtain ⟨⟨p, rest⟩, hboth, rfl⟩ := map_eq_ok.mp h
      obtain ⟨hentry, hrest⟩ := both_eq_ok.mp hboth
      obtain ⟨hkey, hvalue⟩ := both_eq_ok.mp (under_eq_ok.mp hentry)
      exact .cons ⟨under_eq_ok.mp hkey, hvalue⟩ (ih hrest)

end Checked

namespace Value

variable {α : Type} {check : Value → Checked α}

-- The value is a text or reads as one.
def IsText (v : Value) (s : String) : Prop := v.checkText = .ok s

-- The value lists these texts, in this order and as often as they come.
def ListsTexts (v : Value) (ts : List String) : Prop :=
  ∃ items, v.items? = some items ∧ List.Forall₂ IsText items ts

-- What a definition says in a field that it may leave open. It does so where the field is
-- missing, and where the field is there but holds nothing.
inductive Supplies (fields : List (Value × Value)) (name : String) (reads : Value → α → Prop) :
    Option α → Prop where
  | missing (h : field? fields name = Option.none) : Supplies fields name reads Option.none
  | nothing (h : field? fields name = some none) : Supplies fields name reads Option.none
  | given {v : Value} {a : α} (h : field? fields name = some v) (hread : reads v a) :
    Supplies fields name reads (some a)

-- The resources that a definition lists with their tokens, repetitions included.
inductive ListsResources (fields : List (Value × Value)) : List (String × List String) → Prop where
  | missing (h : field? fields "permissions" = Option.none) : ListsResources fields []
  | given {entries : List (Value × Value)} {listing : List (String × List String)}
    (h : field? fields "permissions" = some (.map entries))
    (hentries : List.Forall₂ (fun e l => IsText e.1 l.1 ∧ ListsTexts e.2 l.2) entries listing) :
    ListsResources fields listing

theorem listsTexts_of_checkTexts {v : Value} {ts : List String} (h : v.checkTexts = .ok ts) :
    v.ListsTexts ts := by
  unfold checkTexts at h
  split at h
  · rename_i items hitems
    exact ⟨items, hitems, Checked.items_ok h⟩
  · cases h

theorem supplies_of_checkField {reads : Value → α → Prop}
    (hreads : ∀ v a, check v = .ok a → reads v a) {fields : List (Value × Value)}
    {name : String} {o : Option α}
    (h : checkField fields name (checkOption check) Option.none = .ok o) :
    Supplies fields name reads o := by
  unfold checkField at h
  split at h
  · rename_i hmissing
    cases h
    exact .missing hmissing
  · rename_i v hfield
    have hoption := Checked.under_eq_ok.mp h
    unfold checkOption at hoption
    split at hoption
    · cases hoption
      exact .nothing hfield
    · obtain ⟨a, ha, rfl⟩ := Checked.map_eq_ok.mp hoption
      exact .given hfield (hreads v a ha)

end Value

namespace Table

variable {κ α β : Type} [DecidableEq κ]

theorem get?_mapValues (f : α → β) (t : Table κ α) (k : κ) :
    (t.mapValues f).get? k = (t.get? k).map f :=
  get?_mapEntries (fun _ => f) t k

theorem keys_ofList (es : List (κ × α)) : (ofList es).keys = (es.map (·.1)).eraseDups :=
  keys_absorb_of_distinct _ distinct_empty ⟨es⟩

theorem get?_ofList_last (front : List (κ × α)) (k : κ) (v : α) {back : List (κ × α)}
    (h : k ∉ back.map (·.1)) : (ofList (front ++ (k, v) :: back)).get? k = some v :=
  (get?_absorb_last (fun _ v => v) empty front k v h).choose_spec

end Table

namespace Role

open Value

-- A role that a definition says in full. Each resource comes where it is listed first, and of
-- the tokens it is listed with at last, each one comes where it is first.
structure Written (fields : List (Value × Value)) (role : Role) : Prop where
  name : Supplies fields "name" IsText role.name
  description : Supplies fields "description" IsText role.description
  permissions : ∃ listing, ListsResources fields listing ∧
    role.permissions.keys = (listing.map (·.1)).eraseDups ∧
    ∀ front resource tokens back, listing = front ++ (resource, tokens) :: back →
      resource ∉ back.map (·.1) → role.tokens resource = tokens.eraseDups
  inherits : Supplies fields "inherits" ListsTexts role.inherits

-- The role that stands in a configuration, either as it is or written out.
inductive StatedBy (role : Role) : Value → Prop where
  | ready : StatedBy role (.role role)
  | written {fields : List (Value × Value)} (h : Written fields role) :
    StatedBy role (.map fields)

theorem tokens_mapValues_eraseDups (role : Role) {listing : List (String × List String)}
    (h : role.permissions = (Table.ofList listing).mapValues List.eraseDups)
    {front back : List (String × List String)} {resource : String} {tokens : List String}
    (hlisting : listing = front ++ (resource, tokens) :: back)
    (hlast : resource ∉ back.map (·.1)) : role.tokens resource = tokens.eraseDups := by
  rw [Role.tokens, h, Table.get?_mapValues, hlisting, Table.get?_ofList_last front _ _ hlast]
  rfl

theorem listsResources_of_checkField {fields : List (Value × Value)}
    {permissions : Table String (List String)}
    (h : checkField fields "permissions" checkPermissions .empty = .ok permissions) :
    ∃ listing, ListsResources fields listing ∧
      permissions = (Table.ofList listing).mapValues List.eraseDups := by
  unfold checkField at h
  split at h
  · rename_i hmissing
    cases h
    exact ⟨[], .missing hmissing, rfl⟩
  · rename_i v hfield
    have hcheck := Checked.under_eq_ok.mp h
    unfold checkPermissions at hcheck
    split at hcheck
    · rename_i entries
      obtain ⟨listing, hentries, rfl⟩ := Checked.map_eq_ok.mp hcheck
      have hread := (Checked.entries_ok hentries).imp fun _ _ hentry =>
        And.imp_right listsTexts_of_checkTexts hentry
      exact ⟨listing, .given hfield hread, rfl⟩
    · cases hcheck

theorem written_of_checkFields {fields : List (Value × Value)} {role : Role}
    (h : checkFields fields = .ok role) : Written fields role := by
  unfold checkFields at h
  obtain ⟨⟨name, description, permissions, inherits⟩, hboth, rfl⟩ := Checked.map_eq_ok.mp h
  obtain ⟨hname, hrest⟩ := Checked.both_eq_ok.mp hboth
  obtain ⟨hdescription, hrest⟩ := Checked.both_eq_ok.mp hrest
  obtain ⟨hpermissions, hinherits⟩ := Checked.both_eq_ok.mp hrest
  obtain ⟨listing, hlisting, rfl⟩ := listsResources_of_checkField hpermissions
  refine ⟨supplies_of_checkField (fun _ _ htext => htext) hname,
    supplies_of_checkField (fun _ _ htext => htext) hdescription,
    ⟨listing, hlisting, ?_, ?_⟩,
    supplies_of_checkField (fun _ _ => listsTexts_of_checkTexts) hinherits⟩
  · rw [Table.keys_mapValues, Table.keys_ofList]
  · intro front resource tokens back hsplit hlast
    exact tokens_mapValues_eraseDups _ rfl hsplit hlast

theorem statedBy_of_ofValue? {body : Value} {role : Role} (h : ofValue? body = .ok role) :
    role.StatedBy body := by
  unfold ofValue? at h
  split at h
  · cases h
    exact .ready
  · exact .written (written_of_checkFields h)
  · cases h

end Role

end RoleAccess
