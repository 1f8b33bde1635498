import RoleAccess.Proofs.Roster.Nearest
import RoleAccess.Proofs.Session.Growth

namespace RoleAccess

namespace Roster

-- All tokens that are given to somebody above a role, each one once, the role's own in front as they
-- stand, and the rest in the order in which they come up on the way. They are the role's own and
-- what its parents have.
structure Collects (roster : Roster) (id : RoleId) (resource : String) (tokens : List String) :
    Prop where
  mem_iff : ∀ t, t ∈ tokens ↔
    ∃ a, roster.lineage.Reaches id a ∧ t ∈ roster.directTokens a resource
  nodup : tokens.Nodup
  own : roster.directTokens id resource <+: tokens
  order : ∀ t u, tokens.idxOf t < tokens.idxOf u ↔
    roster.lineage.ComesUpFirst id (roster.directTokens · resource) t u
  parents : ∀ t, t ∈ tokens ↔ t ∈ roster.directTokens id resource ∨
    ∃ p ∈ roster.parents id, t ∈ roster.resolve p resource

-- The role itself is the first one on its way up, and its own tokens have no repetitions.
theorem WellFormed.directTokens_prefix_resolve {roster : Roster} (h : roster.WellFormed)
    (id : RoleId) (resource : String) :
    roster.directTokens id resource <+: roster.resolve id resource := by
  have hown := List.eraseDups_of_nodup (h.nodup_directTokens id resource)
  unfold resolve
  rw [Lineage.reached_eq, Lineage.members_cons, List.flatMap_cons, List.eraseDups_append, hown]
  exact List.prefix_append _ _

end Roster

namespace Session

theorem resolve_collects (s : Session) (hs : s.Reachable) (id : RoleId) (resource : String) :
    s.roster.Collects id resource (s.roster.resolve id resource) where
  mem_iff := s.roster.mem_resolve_iff id resource
  nodup := s.roster.nodup_resolve id resource
  own := hs.wellFormed.directTokens_prefix_resolve id resource
  order := s.roster.idxOf_lt_idxOf_resolve id resource
  parents := s.roster.mem_resolve_iff_parents id resource

-- The two roles come to inherit from each other, and both are given one of the tokens.
def knot : Value :=
  .map [(.text "staff", .map [(.text "inherits", .list [.text "lead"])]),
    (.text "lead", .map [(.text "permissions",
      .map [(.text "posts", .list [.text "publish", .text "edit"])])])]

def knotted : Session := (haunted.run (.merge knot)).session

theorem knotted_reachable : knotted.Reachable := by
  refine .run _ _ haunted_reachable ?_
  rintro _ ⟨⟩
  exact Value.vetted_of_written (by decide)

theorem resolve_collects_knotted :
    knotted.roster.Collects (.named "lead") "posts" ["publish", "edit", "read"] ∧
    knotted.roster.Collects (.named "staff") "posts" ["read", "edit", "publish"] := by
  have hlead : knotted.roster.resolve (.named "lead") "posts" = ["publish", "edit", "read"] := by
    decide +kernel
  have hstaff : knotted.roster.resolve (.named "staff") "posts" = ["read", "edit", "publish"] := by
    decide +kernel
  have hcollects := resolve_collects knotted knotted_reachable
  exact ⟨hlead ▸ hcollects _ _, hstaff ▸ hcollects _ _⟩

end Session

end RoleAccess
