import RoleAccess.Proofs.Decision.Checks

namespace RoleAccess

namespace Permission

theorem hasResult_parse_iff (t : String) :
    (parse t).hasResult = true ↔ resultSeparator ∈ t.toList := by
  rw [← Text.isSome_cut]
  simp [parse, hasResult]

theorem isQualified_parse_iff (t : String) :
    (parse t).isQualified = true ↔
      qualifierSeparator ∈ (Text.cut resultSeparator t.toList).1 := by
  rw [← Text.isSome_cut]
  simp [parse, isQualified]

end Permission

namespace Check

-- How the request with a check reads, by how its action reads by itself. An action with a
-- separator in it is no action any more, and the check goes to whatever part it ends in.
def attach (check : Check) (passed : Bool) : Permission → Permission
  | ⟨action, qualifier, some result⟩ => ⟨action, qualifier, some (check.token result passed)⟩
  | ⟨action, some qualifier, none⟩ =>
    ⟨action, some (qualifier ++ Permission.qualifierSeparator.toString ++ check.qualifier),
      some (Permission.outcome passed)⟩
  | ⟨action, none, none⟩ => check.request action passed

variable {check : Check} {passed : Bool} {p : Permission}

theorem token_attach (check : Check) (passed : Bool) (p : Permission) :
    (check.attach passed p).token = check.token p.token passed := by
  obtain ⟨action, qualifier, result⟩ := p
  apply String.toList_injective
  cases result with
  | some result => cases qualifier <;> simp [attach, token, Permission.token]
  | none => cases qualifier <;> simp [attach, request, token, Permission.token]

theorem legible_attach (h : p.Legible) : (check.attach passed p).Legible := by
  obtain ⟨action, qualifier, result⟩ := p
  have hcheck := check.resultSeparator_not_mem_qualifier
  cases result with
  | some result => exact ⟨h.action_qualifier, h.action_result, h.qualifier_result⟩
  | none =>
      refine ⟨?_, ?_, ?_⟩
      · cases qualifier <;> exact h.action_qualifier
      · cases qualifier <;> exact h.action_result
      · cases qualifier with
        | none =>
            rintro _ ⟨⟩
            exact hcheck
        | some q =>
            have hq := h.qualifier_result q rfl
            have hseparator : Permission.resultSeparator ≠ Permission.qualifierSeparator := by
              decide
            rintro _ ⟨⟩
            simp [hq, hcheck, hseparator]

-- The action takes its own parts along, whatever they are, and nothing else is split.
theorem parse_token_eq_attach (check : Check) (action : String) (passed : Bool) :
    Permission.parse (check.token action passed) =
      check.attach passed (Permission.parse action) := by
  have hlegible : (check.attach passed (Permission.parse action)).Legible :=
    legible_attach (Permission.legible_parse action)
  have htoken := token_attach check passed (Permission.parse action)
  rw [Permission.token_parse] at htoken
  rw [← htoken, hlegible.parse_token]

-- The token of a check has a colon in it, and the outcome of one does not.
theorem token_ne_outcome (check : Check) (text : String) (passed other : Bool) :
    check.token text passed ≠ Permission.outcome other := by
  intro h
  have hmem : Permission.qualifierSeparator ∈ (check.token text passed).toList := by
    simp [token, Permission.token]
  have hfree : Permission.qualifierSeparator ∉ (Permission.outcome other).toList := by
    cases other <;> decide
  exact hfree (h ▸ hmem)

theorem result_attach (check : Check) (passed : Bool) (p : Permission) :
    ∃ r, (check.attach passed p).result = some r ∧
      (r = Permission.outcome true ↔ passed = true ∧ p.hasResult = false) := by
  obtain ⟨action, qualifier, result⟩ := p
  have houtcome : Permission.outcome passed = Permission.outcome true ↔ passed = true := by
    cases passed <;> decide
  cases result with
  | some result =>
      have hne := token_ne_outcome check result passed true
      exact ⟨_, rfl, by simp [hne, Permission.hasResult]⟩
  | none =>
      cases qualifier <;> exact ⟨_, rfl, by simp [houtcome, Permission.hasResult]⟩

theorem failed_attach_iff (check : Check) (passed : Bool) (p : Permission) :
    (check.attach passed p).Failed ↔ passed = false ∨ p.hasResult = true := by
  obtain ⟨r, hresult, hr⟩ := result_attach check passed p
  have hfailed : (check.attach passed p).Failed ↔ r ≠ Permission.outcome true := by
    simp [Permission.Failed, hresult]
  rw [hfailed, ne_eq, hr, Classical.not_and_iff_not_or_not, Bool.not_eq_true, Bool.not_eq_false]

theorem isQualified_attach (check : Check) (passed : Bool) (p : Permission) :
    (check.attach passed p).isQualified = (p.isQualified || !p.hasResult) := by
  obtain ⟨action, qualifier, result⟩ := p
  cases result <;> cases qualifier <;> rfl

-- What is so for every token that a check on the action can give. `P` is told what it takes to pass
-- the check.
structure EachToken (action : String) (P : Check → Prop → String → Prop) : Prop where
  own : ∀ actor owner : Value,
    P .own (actor.kind = owner.kind ∧ actor.equal owner = true) (ownToken action actor owner)
  group : ∀ (actor members : Value) (items : List Value), members.elements? = some items →
    ∃ token, groupToken action actor members = .ok token ∧
      P .group (∃ m ∈ items, actor.kind = m.kind ∧ actor.equal m = true) token
  val : ∀ (m : Type → Type) [Monad m] [LawfulMonad m] (validator : m Value),
    ∃ token : Value → String, valToken action validator = token <$> validator ∧
      ∀ verdict, P .val (verdict.truthy = true) (token verdict)

theorem eachToken {action : String} {P : Check → Prop → String → Prop}
    (h : ∀ (check : Check) (passed : Bool) (condition : Prop), (passed = true ↔ condition) →
      P check condition (check.token action passed)) : EachToken action P where
  own actor owner := h .own _ _ (sameId_iff actor owner)
  group actor members items hitems := by
    refine ⟨group.token action (isMember actor items), ?_, ?_⟩
    · rw [groupToken, hitems]
    · exact h .group _ _ (isMember_iff actor items)
  val m _ _ validator := by
    refine ⟨fun verdict => Check.val.token action verdict.truthy, ?_, ?_⟩
    · rw [valToken, bind_pure_comp]
    · exact fun verdict => h .val _ _ .rfl

end Check

end RoleAccess
