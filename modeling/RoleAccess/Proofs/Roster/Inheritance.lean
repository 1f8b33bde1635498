import RoleAccess.Proofs.Decision.Rules
import RoleAccess.Proofs.Roster.Resolve
import RoleAccess.Explanation

namespace RoleAccess.Roster

variable {roster : Roster} {a b : RoleId} {resource : String}

theorem resolve_subset_of_inheritsFrom (h : roster.inheritsFrom a b = true) (resource : String) :
    roster.resolve b resource ⊆ roster.resolve a resource := by
  obtain ⟨_, _, hab⟩ := (inheritsFrom_iff _ _ _).mp h
  intro token htoken
  obtain ⟨c, hbc, hdirect⟩ := (mem_resolve_iff _ _ _ _).mp htoken
  exact (mem_resolve_iff _ _ _ _).mpr ⟨c, Relation.ReflTransGen.trans hab hbc, hdirect⟩

theorem can_iff_of_hasWildcard (h : roster.hasWildcard a resource = true)
    (requests : List String) :
    roster.can a requests resource = true ↔
      ¬ ∀ request ∈ requests, (Permission.parse request).isQualified = true ∧
        (Permission.parse request).Failed := by
  have hwildcard := (hasWildcard_iff _ _ _).mp h
  simp only [can_iff, grants, granting_verdict_iff, if_pos hwildcard, not_forall, exists_prop]

-- Under a wildcard that the heir holds and the ancestor does not, a list is refused when every
-- request on it carries a failed check.
theorem can_iff_of_inheritsFrom (h : roster.inheritsFrom a b = true) (resource : String)
    (requests : List String) (hcan : roster.can b requests resource = true) :
    roster.can a requests resource = true ↔
      ¬ (roster.hasWildcard a resource = true ∧ roster.hasWildcard b resource = false ∧
        ∀ request ∈ requests, (Permission.parse request).isQualified = true ∧
          (Permission.parse request).Failed) := by
  cases ha : roster.hasWildcard a resource with
  | true =>
      rw [can_iff_of_hasWildcard ha]
      cases hb : roster.hasWildcard b resource with
      | true => simpa using (can_iff_of_hasWildcard hb requests).mp hcan
      | false => simp
  | false =>
      have hwildcard : Permission.wildcard ∉ roster.resolve a resource := by
        rw [← hasWildcard_iff, ha]
        exact Bool.false_ne_true
      obtain ⟨request, hmem, hgrants⟩ := (can_iff _ _ _ _).mp hcan
      have hsub := resolve_subset_of_inheritsFrom h resource
      have hgrants' := (granting_of_subset_iff hsub _ hgrants).mpr fun hwild => hwildcard hwild.1
      simpa using (can_iff _ _ _ _).mpr ⟨request, hmem, hgrants'⟩

-- On a common cycle both walks collect the same tokens, met in another order perhaps.
theorem mem_resolve_iff_of_mutual (hab : roster.inheritsFrom a b = true)
    (hba : roster.inheritsFrom b a = true) (resource token : String) :
    token ∈ roster.resolve a resource ↔ token ∈ roster.resolve b resource :=
  ⟨fun h => resolve_subset_of_inheritsFrom hba resource h,
    fun h => resolve_subset_of_inheritsFrom hab resource h⟩

theorem reason_explain_of_contains (h : roster.contains a = true) (token resource : String) :
    (roster.explain a token resource).reason =
      verdict (roster.resolve a resource) (Permission.parse token) := by
  simp [explain, explainAs, h]

theorem inheritsFrom_passes_rights (roster : Roster) (a b : RoleId)
    (hab : roster.inheritsFrom a b = true) (resource : String) :
    (∀ token ∈ roster.resolve b resource, token ∈ roster.resolve a resource) ∧
    (∀ requests, roster.can b requests resource = true →
      (roster.can a requests resource = true ↔
        ¬ (roster.hasWildcard a resource = true ∧ roster.hasWildcard b resource = false ∧
          ∀ request ∈ requests, (Permission.parse request).isQualified = true ∧
            (Permission.parse request).Failed))) ∧
    (roster.inheritsFrom b a = true →
      (∀ requests, roster.can a requests resource = roster.can b requests resource) ∧
      (∀ request, roster.has a request resource = roster.has b request resource) ∧
      roster.hasWildcard a resource = roster.hasWildcard b resource ∧
      ∀ request, (roster.explain a request resource).reason =
        (roster.explain b request resource).reason) := by
  refine ⟨fun token => (resolve_subset_of_inheritsFrom hab resource ·),
    can_iff_of_inheritsFrom hab resource, fun hba => ?_⟩
  have htokens := mem_resolve_iff_of_mutual hab hba resource
  obtain ⟨ha, hb, _⟩ := (inheritsFrom_iff _ _ _).mp hab
  refine ⟨?_, ?_, ?_, ?_⟩
  · intro requests
    simp only [can, grants, verdict_congr htokens]
  · intro request
    simp only [has, grantsPattern, verdict_congr htokens]
  · rw [Bool.eq_iff_iff, hasWildcard_iff, hasWildcard_iff, htokens]
  · intro request
    rw [reason_explain_of_contains ha, reason_explain_of_contains hb, verdict_congr htokens]

-- Two roles that inherit from each other, and a parent that nobody knows.
def circle : Roster :=
  ⟨⟨[(.named "lead", ⟨.text "lead",
      ⟨none, none, ⟨[("posts", ["publish"])]⟩, some ["staff", "ghost"]⟩⟩),
    (.named "staff", ⟨.text "staff",
      ⟨none, none, ⟨[("posts", ["edit:own"])]⟩, some ["lead"]⟩⟩)]⟩⟩

theorem inheritsFrom_passes_rights_circle :
    circle.can (.named "lead") ["edit:own|true"] "posts" = true ∧
    ∀ requests, circle.can (.named "lead") requests "posts" =
      circle.can (.named "staff") requests "posts" := by
  have hlead : circle.inheritsFrom (.named "lead") (.named "staff") = true := by decide +kernel
  have hstaff : circle.inheritsFrom (.named "staff") (.named "lead") = true := by decide +kernel
  have hcan : circle.can (.named "staff") ["edit:own|true"] "posts" = true := by decide +kernel
  have hwildcard : circle.hasWildcard (.named "lead") "posts" = false := by decide +kernel
  obtain ⟨_, hpass, hmutual⟩ := inheritsFrom_passes_rights circle _ _ hlead "posts"
  refine ⟨(hpass _ hcan).mpr ?_, (hmutual hstaff).1⟩
  rw [hwildcard]
  exact fun h => Bool.false_ne_true h.1

end RoleAccess.Roster
