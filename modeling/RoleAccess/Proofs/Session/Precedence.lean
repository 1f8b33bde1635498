import RoleAccess.Proofs.Roster.Resolve
import RoleAccess.Proofs.Session.Takes

namespace RoleAccess

namespace Roster

-- How a roster comes out of an update: nothing that was there is lost or moved, and what comes
-- in stands behind it. A display name, a description and a list of parents count when the
-- update has one, be it empty, and those from before count when it has none.
structure ExtendedBy (old update new : Roster) : Prop where
  keys : new.keys =
    old.keys ++ (update.roles.entries.filter fun e => !old.contains e.1).map (·.2.key)
  ids : new.ids = old.ids ++ update.ids.filter fun id => !old.contains id
  kept : ∀ id, update.contains id = false → new.get? id = old.get? id
  added : ∀ id, old.contains id = false → new.get? id = update.get? id
  resources : ∀ id, new.resources id =
    old.resources id ++ (update.resources id).filter (· ∉ old.resources id)
  directTokens : ∀ id resource, new.directTokens id resource =
    old.directTokens id resource ++
      (update.directTokens id resource).filter (· ∉ old.directTokens id resource)
  ownName : ∀ id, new.ownName id = (update.ownName id).or (old.ownName id)
  description : ∀ id, new.description id = (update.description id).or (old.description id)
  ownParents : ∀ id, new.ownParents id = (update.ownParents id).or (old.ownParents id)
  wellFormed : new.WellFormed

theorem WellFormed.extendedBy_merge {roster update : Roster} (hroster : roster.WellFormed)
    (h : update.WellFormed) : roster.ExtendedBy update (roster.merge update) where
  keys := roster.keys_merge h.ids
  ids := roster.ids_merge h.ids
  kept id hid := by
    rw [roster.get?_merge h.ids, get?_of_not_contains hid]
    rfl
  added id hid := by
    rw [roster.get?_merge h.ids, get?_of_not_contains hid]
    cases update.get? id <;> rfl
  resources id := roster.resources_merge h id
  directTokens id resource := directTokens_merge hroster h id resource
  ownName id := roster.ownName_merge h.ids id
  description id := roster.description_merge h.ids id
  ownParents id := roster.ownParents_merge h.ids id
  wellFormed := hroster.merge h

end Roster

namespace Session

-- A valid update is read as it is written, and it extends the roster, which is also where the
-- update of one role after the other leads.
theorem takes_extends (s : Session) (hs : s.Reachable) (configuration : Value) (update : Roster)
    (h : configuration.Describes update) :
    (∃ entries, configuration = .map entries ∧ update.StatedBy entries) ∧
    ∃ t, s.Takes [configuration] t ∧ s.roster.ExtendedBy update t.roster ∧
      ∃ added merged, s.roster.mergeInPlace update = (.ok (), ⟨t.roster, added, merged⟩) := by
  obtain ⟨entries, _, rfl, _, _⟩ := Roster.ofValue?_ok h.read
  have hinPlace := Roster.mergeInPlace_eq hs.wellFormed h.wellFormed.ids
  exact ⟨⟨entries, rfl, Roster.statedBy_of_ofValue? h.read⟩, _, takes_one h s,
    hs.wellFormed.extendedBy_merge h.wellFormed, _, _, hinPlace⟩

-- An update that repeats a token, lists a resource without any, and takes name and parents away.
def revision : Value :=
  .map [(.text "lead", .map [(.text "inherits", .list [.text "staff"])]),
    (.text "staff", .map [(.text "name", .text ""),
      (.text "permissions", .map [(.text "drafts", .list []),
        (.text "posts", .tuple [.text "edit", .text "read", .text "edit"])]),
      (.text "inherits", .list [])])]

def revised : Roster :=
  ⟨⟨[(.named "lead", ⟨.text "lead", ⟨none, none, .empty, some ["staff"]⟩⟩),
    (.named "staff", ⟨.text "staff",
      ⟨some "", none, ⟨[("drafts", []), ("posts", ["edit", "read"])]⟩, some []⟩⟩)]⟩⟩

theorem revision_describes : revision.Describes revised :=
  ⟨Value.vetted_of_written (by decide), rfl⟩

theorem takes_extends_revision :
    ∃ t, staffed.Takes [revision] t ∧
      t.roster.keys.length = 2 ∧
      t.roster.resources (.named "staff") = ["posts", "drafts"] ∧
      t.roster.directTokens (.named "staff") "posts" = ["read", "edit"] ∧
      t.roster.ownName (.named "staff") = some "" ∧
      t.roster.ownParents (.named "staff") = some [] := by
  obtain ⟨_, t, ht, hextended, _⟩ :=
    takes_extends staffed staffed_reachable revision revised revision_describes
  refine ⟨t, ht, ?_, ?_, ?_, ?_, ?_⟩
  · rw [hextended.keys]
    rfl
  · rw [hextended.resources]
    rfl
  · rw [hextended.directTokens]
    rfl
  · rw [hextended.ownName]
    rfl
  · rw [hextended.ownParents]
    rfl

end Session

end RoleAccess
