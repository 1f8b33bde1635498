import RoleAccess.Proofs.Decision.Ruling
import RoleAccess.Proofs.Session.Wildcard
import Mathlib.Data.Set.Finite.Basic

namespace RoleAccess

namespace Permission

-- A name of any length that has no separator in it.
def longName (n : Nat) : String := String.ofList (List.replicate n 'a')

theorem longName_injective : Function.Injective longName := by
  intro m n h
  have hlength := congrArg String.length h
  simpa [longName] using hlength

theorem legible_longName (n : Nat) : (⟨longName n, none, none⟩ : Permission).Legible := by
  have hletters : ∀ c ∈ (longName n).toList, c = 'a' := by
    intro c hc
    rw [longName, String.toList_ofList] at hc
    exact List.eq_of_mem_replicate hc
  refine ⟨?_, ?_, ?_⟩
  · exact fun hmem => absurd (hletters _ hmem) (by decide)
  · exact fun hmem => absurd (hletters _ hmem) (by decide)
  · rintro q ⟨⟩

theorem exists_fresh_action (names : List String) :
    ∃ action, action ∉ names ∧ (⟨action, none, none⟩ : Permission).Legible := by
  have hinfinite := Set.infinite_range_of_injective longName_injective
  obtain ⟨_, ⟨n, rfl⟩, hfresh⟩ := hinfinite.exists_notMem_finset names.toFinset
  exact ⟨longName n, fun hmem => hfresh (List.mem_toFinset.mpr hmem), legible_longName n⟩

end Permission

variable {tokens : List String}

-- Tokens that only look like the wildcard are grants on an action with its name, and there is always
-- another action.
theorem exists_not_grants (h : Permission.wildcard ∉ tokens) :
    ∃ t, (Permission.parse t).result = none ∧ grants tokens t = false := by
  obtain ⟨action, hfresh, hlegible⟩ :=
    Permission.exists_fresh_action (tokens.map fun t => (Permission.parse t).action)
  have hparse : Permission.parse action = ⟨action, none, none⟩ := hlegible.parse_token
  refine ⟨action, by rw [hparse], ?_⟩
  rw [grants, hparse, Bool.eq_false_iff, ne_eq, granting_verdict_iff, if_neg h]
  rintro (⟨hqualified, _⟩ | ⟨⟨t, ht, haction, _⟩, _⟩)
  · exact Bool.false_ne_true hqualified
  · exact hfresh (List.mem_map.mpr ⟨t, ht, haction⟩)

theorem grants_eq_false_iff_of_wildcard (h : Permission.wildcard ∈ tokens) (t : String) :
    grants tokens t = false ↔
      (Permission.parse t).qualifier ≠ none ∧ ¬ (Permission.parse t).Passes := by
  rw [grants, ← Bool.not_eq_true, granting_verdict_iff, if_pos h, not_not,
    Permission.isQualified_iff, Permission.failed_iff_not_passes]

theorem wildcard_mem_iff (tokens : List String) :
    Permission.wildcard ∈ tokens ↔
      ∀ t, (Permission.parse t).result = none → grants tokens t = true := by
  constructor
  · intro h t hresult
    have hpasses : (Permission.parse t).Passes := .inl hresult
    rw [← Bool.not_eq_false, grants_eq_false_iff_of_wildcard h]
    exact fun hrefused => hrefused.2 hpasses
  · intro hall
    by_contra h
    obtain ⟨t, hresult, hrefused⟩ := exists_not_grants h
    rw [hall t hresult] at hrefused
    exact Bool.noConfusion hrefused

namespace Session

theorem run_hasWildcard_true_iff (s : Session) (role : RoleId) (resource : String) :
    (s.run (.hasWildcard role resource)).answer = .ok (.truth true) ↔
      Permission.wildcard ∈ s.roster.resolve role resource := by
  rw [← Roster.hasWildcard_iff]
  simp [run, reply]

-- The wildcard is held by those who may do everything, and by nobody else. It refuses a request only
-- for a check that was not passed.
theorem wildcard_means_every_action (s : Session) (role : RoleId) (resource : String) :
    ((s.run (.hasWildcard role resource)).answer = .ok (.truth true) ↔
      ∀ t, (Permission.parse t).result = none →
        (s.run (.can role (.ofValue (.text t)) resource)).answer = .ok (.truth true)) ∧
    ((s.run (.hasWildcard role resource)).answer = .ok (.truth true) →
      ∀ t, (s.run (.can role (.ofValue (.text t)) resource)).answer = .ok (.truth false) ↔
        (Permission.parse t).qualifier ≠ none ∧ ¬ (Permission.parse t).Passes) := by
  simp only [run_hasWildcard_true_iff, run_can_text_iff]
  exact ⟨wildcard_mem_iff _, fun hwildcard t => grants_eq_false_iff_of_wildcard hwildcard t⟩

-- Nobody may do everything on grants that are written with the wildcard's sign.
def starred : Session :=
  ⟨.default, ⟨⟨[(.named "lead", ⟨.text "lead",
      ⟨none, none, ⟨[("posts", ["*:own", "*|x", "**"])]⟩, none⟩⟩)]⟩⟩⟩

theorem wildcard_means_every_action_starred :
    (¬ ∀ t, (Permission.parse t).result = none →
      (starred.run (.can (.named "lead") (.ofValue (.text t)) "posts")).answer =
        .ok (.truth true)) ∧
    (reigning.run (.can (.named "lead") (.ofValue (.text ":|")) "posts")).answer =
      .ok (.truth false) := by
  have hstarred : (starred.run (.hasWildcard (.named "lead") "posts")).answer ≠
      .ok (.truth true) := by
    rw [ne_eq, run_hasWildcard_true_iff]
    decide +kernel
  have hreigning : (reigning.run (.hasWildcard (.named "lead") "posts")).answer =
      .ok (.truth true) := by
    rw [run_hasWildcard_true_iff]
    decide +kernel
  obtain ⟨hiff, _⟩ := wildcard_means_every_action starred (.named "lead") "posts"
  obtain ⟨_, hrefused⟩ := wildcard_means_every_action reigning (.named "lead") "posts"
  refine ⟨fun hall => hstarred (hiff.mpr hall), (hrefused hreigning ":|").mpr ?_⟩
  decide +kernel

end Session

end RoleAccess
