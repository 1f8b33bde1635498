import RoleAccess.Proofs.Roster.Flattened
import RoleAccess.Proofs.Session.Batching
import RoleAccess.Proofs.Session.Growth

namespace RoleAccess

namespace Role

-- The definition of a role in which nothing is said of parents.
def toOpenValue (r : Role) : Value :=
  .map (((Value.ofRole r).filter fun e => e.1 ≠ "inherits").map fun e => (.text e.1, e.2))

theorem WellFormed.ofValue?_toOpenValue {r : Role} (h : r.WellFormed) :
    ofValue? r.toOpenValue = .ok { r with inherits := none } := by
  have htext := Value.reads_text.option fun _ => Value.noConfusion
  have hpermissions := checkPermissions_map r.permissions
  rw [h.permissions_reread] at hpermissions
  have hmissing : Value.checkField [] "inherits" (Value.checkOption Value.checkTexts) none =
      .ok none := rfl
  simp [ofValue?, toOpenValue, Value.ofRole, checkFields, Value.checkField_cons_self,
    Value.checkField_cons_ne, htext _, hpermissions, hmissing, Checked.under, Checked.both,
    Except.map]

end Role

namespace Roster

theorem inherits_flattened {roster : Roster} :
    ∀ filed ∈ roster.flattened.roles.values, filed.role.inherits = none := by
  intro filed hfiled
  obtain ⟨e, he, rfl⟩ := List.mem_map.mp hfiled
  obtain ⟨held, _, rfl⟩ := List.mem_map.mp he
  rfl

-- The flattened roles are a valid configuration, written out with or without a word on parents, or
-- listed as they are, and no token is lost or moved when it is read.
theorem WellFormed.ofValue?_flattened {roster : Roster} (h : roster.WellFormed) :
    ∀ write ∈ [Role.toOpenValue, Role.toValue, Value.role],
      ofValue? (roster.flattened.toValue write) = .ok roster.flattened := by
  intro write hwrite
  refine h.flattened.ofValue?_toValue fun filed hfiled => ?_
  have hrole := h.flattened.roles filed hfiled
  have hinherits := inherits_flattened filed hfiled
  have hopen : { filed.role with inherits := none } = filed.role := by rw [← hinherits]
  simp only [List.mem_cons, List.not_mem_nil, or_false] at hwrite
  rcases hwrite with rfl | rfl | rfl
  · rw [hrole.ofValue?_toOpenValue, hopen]
  · exact hrole.ofValue?_toValue
  · rfl

end Roster

namespace Session

-- Every role may be given what it inherits as its own, and lose its parents: whoever asks about
-- rights will not see the difference.
theorem flattening_keeps_rights (s : Session) (hs : s.Reachable) (settings : Settings) :
    ∀ write ∈ [Role.toOpenValue, Role.toValue, Value.role],
      ∃ f, (start? settings (s.roster.flattened.toValue write)).1 = .ok f ∧
        ∀ (c : Command) (id : RoleId), c.rightsOf? = some id →
          (f.run c).answer = (s.run c).answer := by
  intro write hwrite
  have hread := hs.wellFormed.ofValue?_flattened write hwrite
  refine ⟨⟨settings, s.roster.flattened⟩, ?_, ?_⟩
  · rw [start?, Roster.create?_of_ofValue? hread]
  · intro c id hc
    exact answer_eq_of_sameTokens (hs.wellFormed.sameTokens_flattened id) hc

theorem flattening_keeps_rights_haunted :
    haunted.roster.directTokens (.named "lead") "posts" = [] ∧
    ∃ f, (start? .default (haunted.roster.flattened.toValue Role.toOpenValue)).1 = .ok f ∧
      (f.run (.tokens (.named "lead") "posts")).answer = .ok (.texts ["read", "edit"]) ∧
      ∀ request, (f.run (.explain (.named "ghost") request "posts")).answer =
        (haunted.run (.explain (.named "ghost") request "posts")).answer := by
  obtain ⟨f, hstart, hanswers⟩ := flattening_keeps_rights haunted haunted_reachable .default
    Role.toOpenValue List.mem_cons_self
  have htokens : haunted.roster.resolve (.named "lead") "posts" = ["read", "edit"] := by decide +kernel
  refine ⟨by decide +kernel, f, hstart, ?_, fun request => hanswers _ _ rfl⟩
  rw [hanswers _ _ rfl, run, htokens]
  rfl

end Session

end RoleAccess
