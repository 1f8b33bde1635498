import RoleAccess.Proofs.Decision.Rules
import RoleAccess.Proofs.Roster.Resolve
import RoleAccess.Session

namespace RoleAccess

-- What is left of an explanation, and of an answer, without the words.
def Explanation.bare (e : Explanation) : Explanation := { e with details := "" }

def Answer.bare : Answer → Answer
  | .explanation e => .explanation e.bare
  | .explanations es => .explanations (es.map (·.bare))
  | answer => answer

namespace Roster

-- Two rosters that give the same roles the same tokens and the same parents, in any order and
-- however often. What the roles are called may differ.
structure SameRights (a b : Roster) : Prop where
  contains_eq : ∀ id, a.contains id = b.contains id
  mem_directTokens_iff : ∀ id resource token,
    token ∈ a.directTokens id resource ↔ token ∈ b.directTokens id resource
  mem_parents_iff : ∀ id p, p ∈ a.parents id ↔ p ∈ b.parents id

namespace SameRights

variable {a b c : Roster}

theorem refl (a : Roster) : a.SameRights a := ⟨fun _ => rfl, fun _ _ _ => .rfl, fun _ _ => .rfl⟩

theorem trans (hab : a.SameRights b) (hbc : b.SameRights c) : a.SameRights c where
  contains_eq id := (hab.contains_eq id).trans (hbc.contains_eq id)
  mem_directTokens_iff id resource token :=
    (hab.mem_directTokens_iff id resource token).trans (hbc.mem_directTokens_iff id resource token)
  mem_parents_iff id p := (hab.mem_parents_iff id p).trans (hbc.mem_parents_iff id p)

theorem reaches_iff (h : a.SameRights b) (id ancestor : RoleId) :
    a.lineage.Reaches id ancestor ↔ b.lineage.Reaches id ancestor :=
  Lineage.reaches_congr h.mem_parents_iff id ancestor

-- The two walks may meet the roles in another order, so only the sets of tokens agree.
theorem mem_resolve_iff (h : a.SameRights b) (id : RoleId) (resource token : String) :
    token ∈ a.resolve id resource ↔ token ∈ b.resolve id resource := by
  simp only [Roster.mem_resolve_iff, h.reaches_iff, h.mem_directTokens_iff]

theorem verdict_eq (h : a.SameRights b) (id : RoleId) (resource : String)
    (request : Permission) :
    verdict (a.resolve id resource) request = verdict (b.resolve id resource) request :=
  verdict_congr (h.mem_resolve_iff id resource) request

theorem can_eq (h : a.SameRights b) (id : RoleId) (requests : List String)
    (resource : String) : a.can id requests resource = b.can id requests resource := by
  simp only [can, grants, h.verdict_eq]

theorem has_eq (h : a.SameRights b) (id : RoleId) (request resource : String) :
    a.has id request resource = b.has id request resource := by
  simp only [has, grantsPattern, h.verdict_eq]

theorem hasWildcard_eq (h : a.SameRights b) (id : RoleId) (resource : String) :
    a.hasWildcard id resource = b.hasWildcard id resource := by
  rw [Bool.eq_iff_iff, hasWildcard_iff, hasWildcard_iff, h.mem_resolve_iff]

theorem inheritsFrom_eq (h : a.SameRights b) (id ancestor : RoleId) :
    a.inheritsFrom id ancestor = b.inheritsFrom id ancestor := by
  rw [Bool.eq_iff_iff, inheritsFrom_iff, inheritsFrom_iff, h.contains_eq, h.contains_eq,
    h.reaches_iff]

theorem bare_explainAs_eq (h : a.SameRights b) (id : RoleId) (action token resource : String) :
    (a.explainAs id action token resource).bare =
      (b.explainAs id action token resource).bare := by
  simp only [Explanation.bare, explainAs, h.contains_eq, h.verdict_eq]

end SameRights

end Roster

namespace Session

variable {s t : Session}

-- Of the roster a request is answered from nothing but the decision counts.
theorem canRequest_answer_of_can {id : RoleId} {request : Request} {resource : String}
    (h : s.roster.can id request.tokens resource = t.roster.can id request.tokens resource) :
    (s.canRequest id request resource).answer = (t.canRequest id request resource).answer := by
  unfold canRequest
  rw [h]
  cases request.flaw? with
  | none => rfl
  | some e => cases t.roster.can id request.tokens resource <;> rfl

theorem explainRequest_answer_of_explainAs {id : RoleId} {resource : String}
    (h : ∀ action token, s.roster.explainAs id action token resource =
      t.roster.explainAs id action token resource) (request : Request) :
    (s.explainRequest id request resource).answer =
      (t.explainRequest id request resource).answer := by
  unfold explainRequest
  simp only [h]
  cases request.flaw? <;> rfl

theorem canRequest_answer_congr (h : s.roster.SameRights t.roster) (id : RoleId)
    (request : Request) (resource : String) :
    (s.canRequest id request resource).answer = (t.canRequest id request resource).answer :=
  canRequest_answer_of_can (h.can_eq id request.tokens resource)

theorem bare_explainRequest_answer_congr (h : s.roster.SameRights t.roster) (id : RoleId)
    (request : Request) (resource : String) :
    (s.explainRequest id request resource).answer.map (·.bare) =
      (t.explainRequest id request resource).answer.map (·.bare) := by
  have hone := fun asked : Asked => h.bare_explainAs_eq id asked.action asked.token resource
  unfold explainRequest
  cases request.flaw? with
  | some e => rfl
  | none =>
      cases request with
      | one asked => exact congrArg (fun e => Except.ok (Answer.explanation e)) (hone asked)
      | any asked flaw? words =>
          simp only [reply, Except.map, Answer.bare, Request.asked, List.map_map]
          exact congrArg (fun es => Except.ok (Answer.explanations es))
            (List.map_congr_left fun asked _ => hone asked)

-- Two sessions that answer every question about rights alike, whatever words they find for it.
structure SameRights (s t : Session) : Prop where
  contains : ∀ id, (s.run (.contains id)).answer = (t.run (.contains id)).answer
  can : ∀ id request resource,
    (s.run (.can id request resource)).answer = (t.run (.can id request resource)).answer
  has : ∀ id token resource,
    (s.run (.has id token resource)).answer = (t.run (.has id token resource)).answer
  hasWildcard : ∀ id resource,
    (s.run (.hasWildcard id resource)).answer = (t.run (.hasWildcard id resource)).answer
  inheritsFrom : ∀ id ancestor,
    (s.run (.inheritsFrom id ancestor)).answer = (t.run (.inheritsFrom id ancestor)).answer
  explain : ∀ id request resource,
    (s.run (.explain id request resource)).answer.map (·.bare) =
      (t.run (.explain id request resource)).answer.map (·.bare)

theorem sameRights_of_roster (h : s.roster.SameRights t.roster) : s.SameRights t where
  contains id := by simp only [run, reply, h.contains_eq]
  can := canRequest_answer_congr h
  has id token resource := by simp only [run, reply, h.has_eq]
  hasWildcard id resource := by simp only [run, reply, h.hasWildcard_eq]
  inheritsFrom id ancestor := by simp only [run, reply, h.inheritsFrom_eq]
  explain := bare_explainRequest_answer_congr h

end Session

end RoleAccess
