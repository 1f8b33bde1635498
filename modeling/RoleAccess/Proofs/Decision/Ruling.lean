import RoleAccess.Proofs.Decision.Rules

namespace RoleAccess

namespace Permission

-- The request carries no outcome, or that of a check that was passed.
def Passes (p : Permission) : Prop := p.result = none ∨ p.result = some (outcome true)

instance (p : Permission) : Decidable p.Passes := inferInstanceAs (Decidable (_ ∨ _))

theorem failed_iff_not_passes (p : Permission) : p.Failed ↔ ¬ p.Passes := by
  unfold Failed Passes
  cases p.result <;> simp

theorem isQualified_iff (p : Permission) : p.isQualified = true ↔ p.qualifier ≠ none :=
  Option.isSome_iff_ne_none

end Permission

variable {tokens : List String} {request : Permission} {reason : Reason}

-- The bare action is granted to a request that has a qualifier.
def HasGeneral (tokens : List String) (request : Permission) : Prop :=
  request.qualifier ≠ none ∧ request.action ∈ tokens

-- The action is granted under some qualifier to a request that has none.
def HasOther (tokens : List String) (request : Permission) : Prop :=
  request.qualifier = none ∧ HasQualified tokens request

instance : Decidable (HasGeneral tokens request) := inferInstanceAs (Decidable (_ ∧ _))

instance : Decidable (HasOther tokens request) := inferInstanceAs (Decidable (_ ∧ _))

-- The rules, each with all that has to hold for it to apply.
inductive Ruling (tokens : List String) (request : Permission) : Reason → Prop where
  | noTokens (htokens : tokens = []) : Ruling tokens request .resourceNotAllowed
  | wildcard (hwildcard : Permission.wildcard ∈ tokens) (hplain : request.qualifier = none) :
    Ruling tokens request .wildcardPermission
  | wildcardPassed (hwildcard : Permission.wildcard ∈ tokens)
    (hqualified : request.qualifier ≠ none) (hpasses : request.Passes) :
    Ruling tokens request .wildcardWithOwnership
  | wildcardFailed (hwildcard : Permission.wildcard ∈ tokens)
    (hqualified : request.qualifier ≠ none) (hpasses : ¬ request.Passes) :
    Ruling tokens request .ownershipCheckFailed
  | general (hwildcard : Permission.wildcard ∉ tokens) (hgeneral : HasGeneral tokens request) :
    Ruling tokens request .genericPermissionWithOwnership
  | otherForm (hwildcard : Permission.wildcard ∉ tokens) (hgeneral : ¬ HasGeneral tokens request)
    (hform : ¬ HasForm tokens request) (hother : HasOther tokens request) :
    Ruling tokens request .requiresOwnership
  | noForm (htokens : tokens ≠ []) (hwildcard : Permission.wildcard ∉ tokens)
    (hgeneral : ¬ HasGeneral tokens request) (hform : ¬ HasForm tokens request)
    (hother : ¬ HasOther tokens request) : Ruling tokens request .actionNotAllowed
  | passed (hwildcard : Permission.wildcard ∉ tokens) (hgeneral : ¬ HasGeneral tokens request)
    (hform : HasForm tokens request) (hresult : request.result = some (Permission.outcome true)) :
    Ruling tokens request .permissionWithOwnership
  | failed (hwildcard : Permission.wildcard ∉ tokens) (hgeneral : ¬ HasGeneral tokens request)
    (hform : HasForm tokens request) (hresult : request.result ≠ none)
    (hfailed : request.result ≠ some (Permission.outcome true)) :
    Ruling tokens request .ownershipCheckFailed
  | byDefault (hwildcard : Permission.wildcard ∉ tokens) (hgeneral : ¬ HasGeneral tokens request)
    (hform : HasForm tokens request) (hresult : request.result = none)
    (hqualified : request.qualifier ≠ none) :
    Ruling tokens request .permissionWithOwnershipDefault
  | granted (hwildcard : Permission.wildcard ∉ tokens) (hgeneral : ¬ HasGeneral tokens request)
    (hform : HasForm tokens request) (hresult : request.result = none)
    (hplain : request.qualifier = none) : Ruling tokens request .permissionGranted

theorem HasForm.ne_nil (h : HasForm tokens request) : tokens ≠ [] := by
  obtain ⟨t, ht, _⟩ := h
  exact List.ne_nil_of_mem ht

theorem HasOther.ne_nil (h : HasOther tokens request) : tokens ≠ [] := by
  obtain ⟨_, t, ht, _⟩ := h
  exact List.ne_nil_of_mem ht

theorem verdict_eq_weighed (tokens : List String) (request : Permission) :
    verdict tokens request =
      if tokens = [] then .resourceNotAllowed
      else if Permission.wildcard ∈ tokens then
        if request.qualifier = none then .wildcardPermission
        else if request.Passes then .wildcardWithOwnership
        else .ownershipCheckFailed
      else if HasGeneral tokens request then .genericPermissionWithOwnership
      else if HasForm tokens request then
        if request.result = none then
          if request.qualifier = none then .permissionGranted else .permissionWithOwnershipDefault
        else if request.result = some (Permission.outcome true) then .permissionWithOwnership
        else .ownershipCheckFailed
      else if HasOther tokens request then .requiresOwnership
      else .actionNotAllowed := by
  obtain ⟨action, qualifier, result⟩ := request
  have hpasses : Permission.Passes ⟨action, qualifier, result⟩ ↔
      result = none ∨ result = some (Permission.outcome true) := .rfl
  simp only [verdict_eq, Permission.failed_iff_not_passes, Permission.isQualified,
    Permission.hasResult, HasGeneral, HasOther, hpasses]
  cases qualifier with
  | none => cases result <;> simp
  | some q => cases result <;> simp

theorem verdict_of_ruling (h : Ruling tokens request reason) : verdict tokens request = reason := by
  rw [verdict_eq_weighed]
  cases h with
  | noTokens htokens => rw [if_pos htokens]
  | wildcard hwildcard hplain => simp [List.ne_nil_of_mem hwildcard, hwildcard, hplain]
  | wildcardPassed hwildcard hqualified hpasses =>
      simp [List.ne_nil_of_mem hwildcard, hwildcard, hqualified, hpasses]
  | wildcardFailed hwildcard hqualified hpasses =>
      simp [List.ne_nil_of_mem hwildcard, hwildcard, hqualified, hpasses]
  | general hwildcard hgeneral =>
      simp [List.ne_nil_of_mem hgeneral.2, hwildcard, hgeneral]
  | otherForm hwildcard hgeneral hform hother =>
      simp [hother.ne_nil, hwildcard, hgeneral, hform, hother]
  | noForm htokens hwildcard hgeneral hform hother =>
      simp [htokens, hwildcard, hgeneral, hform, hother]
  | passed hwildcard hgeneral hform hresult =>
      simp [hform.ne_nil, hwildcard, hgeneral, hform, hresult]
  | failed hwildcard hgeneral hform hresult hfailed =>
      simp [hform.ne_nil, hwildcard, hgeneral, hform, hresult, hfailed]
  | byDefault hwildcard hgeneral hform hresult hqualified =>
      simp [hform.ne_nil, hwildcard, hgeneral, hform, hresult, hqualified]
  | granted hwildcard hgeneral hform hresult hplain =>
      simp [hform.ne_nil, hwildcard, hgeneral, hform, hresult, hplain]

theorem ruling_verdict (tokens : List String) (request : Permission) :
    Ruling tokens request (verdict tokens request) := by
  rw [verdict_eq_weighed]
  split_ifs with htokens hwildcard hplain hpasses hgeneral hform hresult hplain hpassed hother
  · exact .noTokens htokens
  · exact .wildcard hwildcard hplain
  · exact .wildcardPassed hwildcard hplain hpasses
  · exact .wildcardFailed hwildcard hplain hpasses
  · exact .general hwildcard hgeneral
  · exact .granted hwildcard hgeneral hform hresult hplain
  · exact .byDefault hwildcard hgeneral hform hresult hplain
  · exact .passed hwildcard hgeneral hform hpassed
  · exact .failed hwildcard hgeneral hform hresult hpassed
  · exact .otherForm hwildcard hgeneral hform hother
  · exact .noForm htokens hwildcard hgeneral hform hother

theorem scan_eq (request : Permission) (noted : Bool) (tokens : List String) :
    scan request noted tokens =
      if HasForm tokens request then .exact
      else if noted ∨ ¬ request.isQualified ∧ HasQualified tokens request then .otherQualifier
      else .none := by
  induction tokens generalizing noted with
  | nil => simp [scan, HasForm, HasQualified]
  | cons t ts ih =>
      simp only [scan, ih, hasForm_cons, hasQualified_cons]
      by_cases haction : (Permission.parse t).action = request.action
      · by_cases hqualifier : (Permission.parse t).qualifier = request.qualifier
        · simp [haction, hqualifier]
        · by_cases hrest : HasForm ts request
          · simp [haction, hqualifier, hrest]
          · grind
      · simp [haction]

theorem scan_eq_fit (request : Permission) (tokens : List String) :
    scan request false tokens = fit request tokens := by
  rw [scan_eq, fit_eq]
  simp

theorem verdictAlong_self (tokens : List String) (request : Permission) :
    verdictAlong tokens tokens request = verdict tokens request := by
  rw [verdictAlong, scan_eq_fit]
  rfl

-- A set of tokens may be gone through in any order, and more than once.
theorem verdictAlong_eq {order : List String} (h : ∀ t, t ∈ order ↔ t ∈ tokens)
    (request : Permission) : verdictAlong order tokens request = verdict tokens request := by
  have hnil : tokens = [] ↔ order = [] := by
    simp only [List.eq_nil_iff_forall_not_mem, h]
  have halong : verdictAlong order tokens request = verdictAlong order order request := by
    simp only [verdictAlong, hnil]
  rw [halong, verdictAlong_self, verdict_congr h]

-- Each request meets exactly one of the rules, and the decision gives its reason, in whatever
-- order the tokens are looked through.
theorem verdict_follows_rules (tokens : List String) (request : Permission) :
    (∀ reason, verdict tokens request = reason ↔ Ruling tokens request reason) ∧
    ∀ order : List String, (∀ t, t ∈ order ↔ t ∈ tokens) →
      verdictAlong order tokens request = verdict tokens request := by
  refine ⟨fun reason => ⟨?_, verdict_of_ruling⟩, fun order h => verdictAlong_eq h request⟩
  rintro rfl
  exact ruling_verdict tokens request

-- A grant with an outcome of its own, one with an empty qualifier, and a request written by hand.
theorem verdict_follows_rules_shuffled :
    verdictAlong ["edit:", "edit:own|true"] ["edit:own|true", "edit:", "edit:own|true"]
        ⟨"edit", none, some "x|y"⟩ = .requiresOwnership ∧
      Ruling ["edit:own|true", "edit:", "edit:own|true"] ⟨"edit", none, some "x|y"⟩
        .requiresOwnership := by
  obtain ⟨hrules, horder⟩ := verdict_follows_rules ["edit:own|true", "edit:", "edit:own|true"]
    ⟨"edit", none, some "x|y"⟩
  have hverdict : verdict ["edit:own|true", "edit:", "edit:own|true"]
      ⟨"edit", none, some "x|y"⟩ = .requiresOwnership := by decide +kernel
  have hmembers : ∀ t, t ∈ ["edit:", "edit:own|true"] ↔
      t ∈ ["edit:own|true", "edit:", "edit:own|true"] := by grind
  exact ⟨(horder _ hmembers).trans hverdict, (hrules _).mp hverdict⟩

end RoleAccess
