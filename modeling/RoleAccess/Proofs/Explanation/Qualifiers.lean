import RoleAccess.Proofs.Decision.Ruling
import RoleAccess.Proofs.Explanation.Agreement
import RoleAccess.Proofs.List.Distinct
import RoleAccess.Proofs.Permission.Codec

namespace RoleAccess

theorem pairwise_lt_mergeSort {l : List String} (h : l.Nodup) :
    l.mergeSort.Pairwise (· < ·) := by
  have hnodup : l.mergeSort.Nodup := (List.mergeSort_perm l _).nodup_iff.mpr h
  refine (pairwise_le_mergeSort l).imp₂ (fun a b hle hne => ?_) hnodup
  rw [← String.not_le]
  exact fun hge => hne (String.le_antisymm hle hge)

namespace Explanation

-- What is said of a request that needs a qualifier, with the qualifiers that there are.
def needsQualifier (name action resource : String) (qualifiers : List String) : String :=
  let listed := ", ".intercalate qualifiers
  s!"{name} can only '{action}' '{resource}' with a qualifier ({listed})"

theorem mem_qualifiersFor_iff (tokens : List String) (action q : String) :
    q ∈ qualifiersFor tokens action ↔ q ≠ "" ∧ ∃ t ∈ tokens,
      (Permission.parse t).action = action ∧ (Permission.parse t).qualifier = some q := by
  unfold qualifiersFor
  simp only [List.mem_mergeSort, List.mem_eraseDups, List.mem_filterMap, List.mem_map]
  constructor
  · rintro ⟨_, ⟨t, ht, rfl⟩, hq⟩
    split at hq
    · rename_i haction
      obtain ⟨hqualifier, hne⟩ := Option.filter_eq_some_iff.mp hq
      exact ⟨of_decide_eq_true hne, t, ht, haction, hqualifier⟩
    · cases hq
  · rintro ⟨hne, t, ht, haction, hqualifier⟩
    refine ⟨_, ⟨t, ht, rfl⟩, ?_⟩
    rw [if_pos haction]
    exact Option.filter_eq_some_iff.mpr ⟨hqualifier, decide_eq_true hne⟩

theorem pairwise_lt_qualifiersFor (tokens : List String) (action : String) :
    (qualifiersFor tokens action).Pairwise (· < ·) :=
  pairwise_lt_mergeSort (List.nodup_eraseDups _)

end Explanation

variable {tokens : List String} {request : Permission}

-- The bare action is a grant of its own form.
theorem hasForm_of_action_mem (hlegible : request.Legible) (hplain : request.qualifier = none)
    (h : request.action ∈ tokens) : HasForm tokens request := by
  have hbare : (⟨request.action, none, none⟩ : Permission).Legible :=
    ⟨hlegible.action_qualifier, hlegible.action_result, by rintro _ ⟨⟩⟩
  have hparse : Permission.parse request.action = ⟨request.action, none, none⟩ := hbare.parse_token
  exact ⟨request.action, h, by rw [hparse], by rw [hparse, hplain]⟩

-- Where an action is granted under qualifiers only, nothing but a grant with the same qualifier
-- helps.
theorem grants_qualified_iff (hlegible : request.Legible)
    (h : verdict tokens request = .requiresOwnership) {q : String}
    (hq : Permission.resultSeparator ∉ q.toList) :
    grants tokens (request.action ++ ":" ++ q) = true ↔ ∃ t ∈ tokens,
      (Permission.parse t).action = request.action ∧
        (Permission.parse t).qualifier = some q := by
  have hqualified : (⟨request.action, some q, none⟩ : Permission).Legible :=
    ⟨hlegible.action_qualifier, hlegible.action_result, by rintro _ ⟨⟩; exact hq⟩
  have hparse : Permission.parse (request.action ++ ":" ++ q) = ⟨request.action, some q, none⟩ :=
    hqualified.parse_token
  have hpassed : ¬ (⟨request.action, some q, none⟩ : Permission).Failed := by
    rintro ⟨_, ⟨⟩, _⟩
  have hruling := ruling_verdict tokens request
  rw [h] at hruling
  cases hruling with
  | otherForm hwildcard _ hform hother =>
      have haction : request.action ∉ tokens :=
        fun hmem => hform (hasForm_of_action_mem hlegible hother.1 hmem)
      rw [grants, hparse, granting_verdict_iff, if_neg hwildcard]
      constructor
      · rintro (⟨_, hgeneral⟩ | ⟨hheld, _⟩)
        · exact absurd hgeneral haction
        · exact hheld
      · exact fun hheld => .inr ⟨hheld, hpassed⟩

theorem mem_qualifiersFor_iff_grants (hlegible : request.Legible)
    (h : verdict tokens request = .requiresOwnership) (q : String) :
    q ∈ Explanation.qualifiersFor tokens request.action ↔
      q ≠ "" ∧ Permission.resultSeparator ∉ q.toList ∧
        grants tokens (request.action ++ ":" ++ q) = true := by
  rw [Explanation.mem_qualifiersFor_iff]
  constructor
  · rintro ⟨hne, t, ht, haction, hqualifier⟩
    have hq := (Permission.legible_parse t).qualifier_result q hqualifier
    exact ⟨hne, hq, (grants_qualified_iff hlegible h hq).mpr ⟨t, ht, haction, hqualifier⟩⟩
  · rintro ⟨hne, hq, hgranted⟩
    exact ⟨hne, (grants_qualified_iff hlegible h hq).mp hgranted⟩

-- Nobody is told to use a qualifier who is not known or was refused for another reason.
theorem Roster.explainAs_of_requiresOwnership {roster : Roster} {id : RoleId}
    {action token resource : String}
    (h : (roster.explainAs id action token resource).reason = .requiresOwnership) :
    verdict (roster.resolve id resource) (Permission.parse token) = .requiresOwnership ∧
      (roster.explainAs id action token resource).details =
        Explanation.needsQualifier (roster.displayName id) action resource
          (Explanation.qualifiersFor (roster.resolve id resource)
            (Permission.parse token).action) := by
  unfold explainAs at h ⊢
  cases hknown : roster.contains id with
  | false => simp [hknown] at h
  | true =>
      simp only [hknown, if_true] at h ⊢
      rw [h]
      exact ⟨rfl, rfl⟩

-- The explanations that an answer gives.
def Answer.explained : Answer → List Explanation
  | .explanation e => [e]
  | .explanations es => es
  | _ => []

namespace Session

theorem explained_of_answer {s : Session} {role : RoleId} {request : Request} {resource : String}
    {answer : Answer} (h : (s.run (.explain role request resource)).answer = .ok answer) :
    answer.explained = request.asked.map fun asked =>
      s.roster.explainAs role asked.action asked.token resource := by
  cases request with
  | one asked =>
      cases h
      rfl
  | any asked flaw? words =>
      cases flaw? with
      | none =>
          cases h
          rfl
      | some e => cases h

-- A request that lacks a qualifier is told which ones there are, and these are the ones under which
-- it is granted.
theorem requiresOwnership_names_remedies (s : Session) (role : RoleId) (request : Request)
    (resource : String) (answer : Answer)
    (hanswer : (s.run (.explain role request resource)).answer = .ok answer) (e : Explanation)
    (he : e ∈ answer.explained) (hreason : e.reason = .requiresOwnership) :
    ∃ asked ∈ request.asked, ∃ qualifiers : List String,
      e.action = (Permission.parse asked.token).action ∧
      e.details = Explanation.needsQualifier (s.roster.displayName role) asked.action resource
        qualifiers ∧
      qualifiers.Pairwise (· < ·) ∧
      ∀ q, q ∈ qualifiers ↔ q ≠ "" ∧ '|' ∉ q.toList ∧
        (s.run (.can role (.ofValue (.text (e.action ++ ":" ++ q))) resource)).answer =
          .ok (.truth true) := by
  rw [explained_of_answer hanswer] at he
  obtain ⟨asked, hasked, rfl⟩ := List.mem_map.mp he
  obtain ⟨hverdict, hdetails⟩ := Roster.explainAs_of_requiresOwnership hreason
  have hlegible := Permission.legible_parse asked.token
  refine ⟨asked, hasked, _, rfl, hdetails, Explanation.pairwise_lt_qualifiersFor _ _, fun q => ?_⟩
  rw [run_can_text_iff]
  exact mem_qualifiersFor_iff_grants hlegible hverdict q

-- Grants with outcomes, with several colons and with no qualifier to be shown. A grant on another
-- action does not help.
def conditional : Session :=
  ⟨.default, ⟨⟨[(.named "lead", ⟨.text "lead",
      ⟨some "Lead", none, ⟨[("posts", ["edit:team:b|no", "edit:", "read:all"])]⟩,
        some ["staff"]⟩⟩),
    (.named "staff", ⟨.text "staff",
      ⟨none, none, ⟨[("posts", ["edit:own", "edit:own|true"])]⟩, some ["lead"]⟩⟩)]⟩⟩⟩

theorem requiresOwnership_names_remedies_conditional :
    ∃ e qualifiers,
      (conditional.run (.explain (.named "lead") (.ofValue (.text "edit|x")) "posts")).answer =
        .ok (.explanation e) ∧
      e.details = Explanation.needsQualifier "Lead" "edit" "posts" qualifiers ∧
      qualifiers.Pairwise (· < ·) ∧ "own" ∈ qualifiers ∧ "team:b" ∈ qualifiers ∧
      "all" ∉ qualifiers := by
  obtain ⟨asked, hasked, qualifiers, _, hdetails, hsorted, hmem⟩ :=
    requiresOwnership_names_remedies conditional (.named "lead") (.ofValue (.text "edit|x")) "posts"
      _ rfl (conditional.roster.explain (.named "lead") "edit|x" "posts")
      (List.mem_singleton_self _) (by decide +kernel)
  obtain rfl := List.mem_singleton.mp hasked
  simp only [run_can_text_iff] at hmem
  refine ⟨_, qualifiers, rfl, hdetails, hsorted, ?_, ?_, ?_⟩
  · exact (hmem "own").mpr (by decide +kernel)
  · exact (hmem "team:b").mpr (by decide +kernel)
  · exact fun hall => absurd ((hmem "all").mp hall) (by decide +kernel)

end Session

end RoleAccess
