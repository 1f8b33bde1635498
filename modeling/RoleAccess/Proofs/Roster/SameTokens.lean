import RoleAccess.Proofs.Roster.Rights

namespace RoleAccess

-- The role that a question about rights is asked for.
def Command.rightsOf? : Command → Option RoleId
  | can role _ _ | explain role _ _ | has role _ _ | hasWildcard role _ | tokens role _
  | allTokens role => some role
  | _ => none

namespace Roster

-- Two rosters that have the same tokens for a role in the same order, wherever they find them, and
-- the same name for it.
structure SameTokens (a b : Roster) (id : RoleId) : Prop where
  contains_eq : a.contains id = b.contains id
  displayName_eq : a.displayName id = b.displayName id
  resolve_eq : ∀ resource, a.resolve id resource = b.resolve id resource
  resolveAll_eq : a.resolveAll id = b.resolveAll id

namespace SameTokens

variable {a b : Roster} {id : RoleId}

theorem can_eq (h : a.SameTokens b id) (requests : List String) (resource : String) :
    a.can id requests resource = b.can id requests resource := by
  rw [can, can, h.resolve_eq]

theorem has_eq (h : a.SameTokens b id) (request resource : String) :
    a.has id request resource = b.has id request resource := by
  rw [has, has, h.resolve_eq]

theorem hasWildcard_eq (h : a.SameTokens b id) (resource : String) :
    a.hasWildcard id resource = b.hasWildcard id resource := by
  rw [hasWildcard, hasWildcard, h.resolve_eq]

theorem explainAs_eq (h : a.SameTokens b id) (action token resource : String) :
    a.explainAs id action token resource = b.explainAs id action token resource := by
  simp only [explainAs, h.resolve_eq, h.contains_eq, h.displayName_eq]

end SameTokens

end Roster

theorem Session.answer_eq_of_sameTokens {s t : Session} {id : RoleId}
    (h : s.roster.SameTokens t.roster id) {c : Command} (hc : c.rightsOf? = some id) :
    (s.run c).answer = (t.run c).answer := by
  cases c with
  | can role request resource =>
      cases hc
      exact canRequest_answer_of_can (h.can_eq request.tokens resource)
  | explain role request resource =>
      cases hc
      exact explainRequest_answer_of_explainAs (fun action token => h.explainAs_eq action token _)
        request
  | has role request resource =>
      cases hc
      simp only [run, reply, h.has_eq]
  | hasWildcard role resource =>
      cases hc
      simp only [run, reply, h.hasWildcard_eq]
  | tokens role resource =>
      cases hc
      simp only [run, reply, h.resolve_eq]
  | allTokens role =>
      cases hc
      simp only [run, reply, h.resolveAll_eq]
  | _ => cases hc

end RoleAccess
