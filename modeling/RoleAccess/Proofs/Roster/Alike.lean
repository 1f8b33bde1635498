import RoleAccess.Proofs.List.Distinct
import RoleAccess.Proofs.Roster.Rights

namespace RoleAccess

namespace Explanation

variable {ts us : List String}

theorem qualifiersFor_congr (h : ∀ t, t ∈ ts ↔ t ∈ us) (action : String) :
    qualifiersFor ts action = qualifiersFor us action := by
  unfold qualifiersFor
  apply mergeSort_eraseDups_congr
  intro q
  simp only [List.mem_filterMap, List.mem_map, h]

-- The words name tokens only where they list qualifiers and where they tell a wildcard.
theorem describe_congr (h : ∀ t, t ∈ ts ↔ t ∈ us) (reason : Reason) (name : String)
    (role : RoleId) (resource action : String) (request : Permission) :
    describe reason name role resource action request ts =
      describe reason name role resource action request us := by
  cases reason <;> simp only [describe, h, qualifiersFor_congr h]

end Explanation

namespace Roster

-- Two rosters that say the same, whatever the order in which they say it and however often. A
-- resource without tokens is as good as none.
structure Alike (a b : Roster) : Prop where
  contains_eq : ∀ id, a.contains id = b.contains id
  displayName_eq : ∀ id, a.contains id = true → a.displayName id = b.displayName id
  tokens_iff : ∀ id, a.contains id = true → ∀ resource token,
    token ∈ a.directTokens id resource ↔ token ∈ b.directTokens id resource
  parents_iff : ∀ id, a.contains id = true → ∀ p, p ∈ a.parents id ↔ p ∈ b.parents id

-- It is enough to look at what the two rosters list.
theorem alike_iff (a b : Roster) :
    a.Alike b ↔
      (∀ id ∈ a.ids ++ b.ids, a.contains id = b.contains id) ∧
      ∀ id ∈ a.ids, a.displayName id = b.displayName id ∧
        (∀ resource ∈ a.resources id ++ b.resources id,
          (∀ token ∈ a.directTokens id resource, token ∈ b.directTokens id resource) ∧
          ∀ token ∈ b.directTokens id resource, token ∈ a.directTokens id resource) ∧
        (∀ p ∈ a.parents id, p ∈ b.parents id) ∧ ∀ p ∈ b.parents id, p ∈ a.parents id := by
  have hids : ∀ (r : Roster) (id : RoleId), id ∈ r.ids ↔ r.contains id = true :=
    fun r id => (Table.contains_iff r.roles id).symm
  constructor
  · intro h
    refine ⟨fun id _ => h.contains_eq id, fun id hid => ?_⟩
    have hknown := (hids a id).mp hid
    exact ⟨h.displayName_eq id hknown,
      fun resource _ => ⟨fun token => (h.tokens_iff id hknown resource token).mp,
        fun token => (h.tokens_iff id hknown resource token).mpr⟩,
      fun p => (h.parents_iff id hknown p).mp, fun p => (h.parents_iff id hknown p).mpr⟩
  · rintro ⟨hcontains, hrole⟩
    refine ⟨?_, ?_, ?_, ?_⟩
    · intro id
      by_cases hlisted : id ∈ a.ids ++ b.ids
      · exact hcontains id hlisted
      -- What neither of them lists is unknown to both.
      · rw [List.mem_append, hids, hids, not_or] at hlisted
        rw [Bool.eq_false_iff.mpr hlisted.1, Bool.eq_false_iff.mpr hlisted.2]
    · intro id hid
      exact (hrole id ((hids a id).mpr hid)).1
    · intro id hid resource token
      have htokens := (hrole id ((hids a id).mpr hid)).2.1 resource
      constructor
      · intro h
        have hlisted := mem_resources_of_mem_directTokens h
        exact (htokens (List.mem_append_left _ hlisted)).1 token h
      · intro h
        have hlisted := mem_resources_of_mem_directTokens h
        exact (htokens (List.mem_append_right _ hlisted)).2 token h
    · intro id hid p
      have hparents := (hrole id ((hids a id).mpr hid)).2.2
      exact ⟨hparents.1 p, hparents.2 p⟩

instance (a b : Roster) : Decidable (a.Alike b) := decidable_of_iff _ (alike_iff a b).symm

namespace Alike

variable {a b : Roster}

theorem displayName (h : a.Alike b) (id : RoleId) : a.displayName id = b.displayName id := by
  cases hid : a.contains id with
  | true => exact h.displayName_eq id hid
  | false =>
      have hid' : b.contains id = false := h.contains_eq id ▸ hid
      rw [displayName_of_not_contains hid, displayName_of_not_contains hid']

theorem mem_directTokens_iff (h : a.Alike b) (id : RoleId) (resource token : String) :
    token ∈ a.directTokens id resource ↔ token ∈ b.directTokens id resource := by
  cases hid : a.contains id with
  | true => exact h.tokens_iff id hid resource token
  | false =>
      have hid' : b.contains id = false := h.contains_eq id ▸ hid
      rw [directTokens_of_not_contains hid, directTokens_of_not_contains hid']

theorem mem_parents_iff (h : a.Alike b) (id p : RoleId) :
    p ∈ a.parents id ↔ p ∈ b.parents id := by
  cases hid : a.contains id with
  | true => exact h.parents_iff id hid p
  | false =>
      have hid' : b.contains id = false := h.contains_eq id ▸ hid
      rw [parents_of_not_contains hid, parents_of_not_contains hid']

theorem sameRights (h : a.Alike b) : a.SameRights b where
  contains_eq := h.contains_eq
  mem_directTokens_iff := h.mem_directTokens_iff
  mem_parents_iff := h.mem_parents_iff

theorem has_eq (h : a.Alike b) (id : RoleId) (request resource : String) :
    a.has id request resource = b.has id request resource :=
  h.sameRights.has_eq id request resource

theorem hasWildcard_eq (h : a.Alike b) (id : RoleId) (resource : String) :
    a.hasWildcard id resource = b.hasWildcard id resource :=
  h.sameRights.hasWildcard_eq id resource

theorem inheritsFrom_eq (h : a.Alike b) (id ancestor : RoleId) :
    a.inheritsFrom id ancestor = b.inheritsFrom id ancestor :=
  h.sameRights.inheritsFrom_eq id ancestor

theorem explainAs_eq (h : a.Alike b) (id : RoleId) (action token resource : String) :
    a.explainAs id action token resource = b.explainAs id action token resource := by
  simp only [explainAs, h.contains_eq, h.displayName, h.sameRights.verdict_eq,
    Explanation.describe_congr (h.sameRights.mem_resolve_iff id resource)]

end Alike

end Roster

namespace Session

variable {s t : Session}

theorem canRequest_answer_eq (h : s.roster.Alike t.roster) (id : RoleId) (request : Request)
    (resource : String) :
    (s.canRequest id request resource).answer = (t.canRequest id request resource).answer :=
  canRequest_answer_congr h.sameRights id request resource

theorem explainRequest_answer_eq (h : s.roster.Alike t.roster) (id : RoleId)
    (request : Request) (resource : String) :
    (s.explainRequest id request resource).answer =
      (t.explainRequest id request resource).answer :=
  explainRequest_answer_of_explainAs
    (fun action token => h.explainAs_eq id action token resource) request

-- Two sessions whose rosters say the same answer every question about rights alike.
theorem answers_eq_of_alike (h : s.roster.Alike t.roster) (id : RoleId) (resource : String) :
    (∀ request, (s.run (.can id request resource)).answer =
      (t.run (.can id request resource)).answer) ∧
    (∀ request, (s.run (.explain id request resource)).answer =
      (t.run (.explain id request resource)).answer) ∧
    (∀ token, (s.run (.has id token resource)).answer =
      (t.run (.has id token resource)).answer) ∧
    (s.run (.hasWildcard id resource)).answer = (t.run (.hasWildcard id resource)).answer ∧
    (∀ ancestor, (s.run (.inheritsFrom id ancestor)).answer =
      (t.run (.inheritsFrom id ancestor)).answer) := by
  refine ⟨fun request => canRequest_answer_eq h id request resource,
    fun request => explainRequest_answer_eq h id request resource, ?_, ?_, ?_⟩
  · intro token
    simp only [run, reply, h.has_eq]
  · simp only [run, reply, h.hasWildcard_eq]
  · intro ancestor
    simp only [run, reply, h.inheritsFrom_eq]

-- The same roles written down in two ways.
def written : Session :=
  ⟨.default, ⟨⟨[(.named "lead", ⟨.text "lead",
      ⟨none, none, ⟨[("drafts", []), ("posts", ["edit:own", "*"])]⟩,
        some ["staff", "ghost", "staff"]⟩⟩),
    (.named "staff", ⟨.text "staff",
      ⟨some "Staff", none, ⟨[("posts", ["read", "edit:own"])]⟩, some ["lead"]⟩⟩)]⟩⟩⟩

def rewritten : Session :=
  ⟨.default, ⟨⟨[(.named "staff", ⟨.text "staff",
      ⟨some "Staff", none, ⟨[("posts", ["edit:own", "read"])]⟩, some ["lead"]⟩⟩),
    (.named "lead", ⟨.text "lead",
      ⟨none, none, ⟨[("posts", ["*", "edit:own"])]⟩, some ["ghost", "staff"]⟩⟩)]⟩⟩⟩

theorem answers_written_eq_rewritten :
    written.roster.Alike rewritten.roster ∧
    ∀ request, (written.run (.explain (.named "lead") request "posts")).answer =
      (rewritten.run (.explain (.named "lead") request "posts")).answer := by
  have halike : written.roster.Alike rewritten.roster := by decide
  exact ⟨halike, (answers_eq_of_alike halike (.named "lead") "posts").2.1⟩

end Session

end RoleAccess
