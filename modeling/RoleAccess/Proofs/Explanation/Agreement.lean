import RoleAccess.Proofs.Decision.Rules
import RoleAccess.Proofs.Roster.Resolve
import RoleAccess.Session
import Mathlib.Data.List.Forall2

namespace RoleAccess

namespace Request

theorem ofValue_ofTexts (tokens : List String) :
    ofValue (.ofTexts tokens) =
      .any (tokens.map fun token => ⟨token, (Permission.parse token).action⟩) none
        ((Value.ofTexts tokens).within .standard (Preview.textOf (.ofTexts tokens))) := by
  simp [ofValue, Asked.ofValue?, Value.ofTexts, Value.elements?, Asked.readAll_texts]

theorem tokens_ofValue_ofTexts (tokens : List String) :
    (ofValue (.ofTexts tokens)).tokens = tokens := by
  rw [ofValue_ofTexts]
  induction tokens with
  | nil => rfl
  | cons token tokens ih =>
      simp only [Request.tokens, asked, List.map_cons] at ih ⊢
      rw [ih]

end Request

namespace Roster

theorem granted_explain (roster : Roster) (id : RoleId) (token resource : String) :
    (roster.explain id token resource).granted =
      (roster.explain id token resource).reason.granting := rfl

-- An unknown role is denied by both: one finds no token for it, the other does not look.
theorem granted_explain_eq_can (roster : Roster) (id : RoleId) (token resource : String) :
    (roster.explain id token resource).granted = roster.can id [token] resource := by
  rw [can_singleton, grants]
  simp only [explain, explainAs]
  cases hknown : roster.contains id with
  | true => simp
  | false =>
      rw [resolve_of_not_contains hknown]
      simp [verdict, Reason.granting]

theorem reason_explain_eq_roleNotFound_iff (roster : Roster) (id : RoleId)
    (token resource : String) :
    (roster.explain id token resource).reason = .roleNotFound ↔ roster.contains id = false := by
  simp only [explain, explainAs]
  cases hknown : roster.contains id with
  | true => simp [verdict_ne_roleNotFound]
  | false => simp

theorem can_eq_any_explainAll (roster : Roster) (id : RoleId) (tokens : List String)
    (resource : String) :
    roster.can id tokens resource =
      (roster.explainAll id tokens resource).any (·.granted) := by
  induction tokens with
  | nil => rfl
  | cons token tokens ih =>
      have hhead := granted_explain_eq_can roster id token resource
      simp only [can, explainAll, List.map_cons, List.any_cons, List.any_nil,
        Bool.or_false] at hhead ih ⊢
      rw [hhead, ih]

end Roster

namespace Session

theorem run_can_text (s : Session) (id : RoleId) (token resource : String) :
    (s.run (.can id (.ofValue (.text token)) resource)).answer =
      .ok (.truth (s.roster.can id [token] resource)) := rfl

theorem run_can_text_iff (s : Session) (id : RoleId) (token resource : String) (granted : Bool) :
    (s.run (.can id (.ofValue (.text token)) resource)).answer = .ok (.truth granted) ↔
      grants (s.roster.resolve id resource) token = granted := by
  rw [run_can_text, Roster.can_singleton]
  simp

theorem run_can_texts (s : Session) (id : RoleId) (tokens : List String) (resource : String) :
    (s.run (.can id (.ofValue (.ofTexts tokens)) resource)).answer =
      .ok (.truth (s.roster.can id tokens resource)) := by
  have hflaw : (Request.ofValue (.ofTexts tokens)).flaw? = none := by
    rw [Request.ofValue_ofTexts]
    rfl
  simp only [run, canRequest, hflaw, Request.tokens_ofValue_ofTexts]
  rfl

theorem run_explain_texts (s : Session) (id : RoleId) (tokens : List String)
    (resource : String) :
    (s.run (.explain id (.ofValue (.ofTexts tokens)) resource)).answer =
      .ok (.explanations (s.roster.explainAll id tokens resource)) := by
  simp only [run, explainRequest, Request.ofValue_ofTexts, Request.flaw?, Request.asked, reply,
    List.map_map]
  rfl

-- An explanation gives the account of one decision: what it says of a token is what is decided
-- when the token is asked for by itself.
structure Accounts (s : Session) (id : RoleId) (resource token : String) (e : Explanation) :
    Prop where
  granted_eq_can : (s.run (.can id (.ofValue (.text token)) resource)).answer =
    .ok (.truth e.granted)
  granted_eq_granting : e.granted = e.reason.granting
  roleNotFound_iff : e.reason = .roleNotFound ↔ s.roster.contains id = false
  reason_eq : e.reason =
    if s.roster.contains id then
      verdict (s.roster.resolve id resource) (Permission.parse token)
    else .roleNotFound

theorem accounts_explain (s : Session) (id : RoleId) (resource token : String) :
    s.Accounts id resource token (s.roster.explain id token resource) where
  granted_eq_can := by rw [run_can_text, Roster.granted_explain_eq_can]
  granted_eq_granting := Roster.granted_explain _ _ _ _
  roleNotFound_iff := Roster.reason_explain_eq_roleNotFound_iff _ _ _ _
  reason_eq := rfl

-- A list of tokens is explained one by one, in order, and it is granted when one of these
-- explanations says so.
theorem explain_agrees_with_can (s : Session) (id : RoleId) (tokens : List String)
    (resource : String) :
    ∃ es, (s.run (.explain id (.ofValue (.ofTexts tokens)) resource)).answer =
        .ok (.explanations es) ∧
      List.Forall₂ (s.Accounts id resource) tokens es ∧
      (s.run (.can id (.ofValue (.ofTexts tokens)) resource)).answer =
        .ok (.truth (es.any (·.granted))) := by
  refine ⟨s.roster.explainAll id tokens resource, s.run_explain_texts id tokens resource, ?_, ?_⟩
  · unfold Roster.explainAll
    rw [List.forall₂_map_right_iff, List.forall₂_same]
    intro token _
    exact s.accounts_explain id resource token
  · rw [run_can_texts, Roster.can_eq_any_explainAll]

end Session

end RoleAccess
