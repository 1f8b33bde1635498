import RoleAccess.Proofs.Lineage.Turns
import RoleAccess.Proofs.Roster.Inheritance

namespace RoleAccess.Roster

variable {roster : Roster} {a b c : RoleId}

theorem inheritsFrom_refl (h : roster.contains a = true) : roster.inheritsFrom a a = true :=
  (inheritsFrom_iff _ _ _).mpr ⟨h, h, Relation.ReflTransGen.refl⟩

theorem inheritsFrom_trans (hab : roster.inheritsFrom a b = true)
    (hbc : roster.inheritsFrom b c = true) : roster.inheritsFrom a c = true := by
  obtain ⟨ha, _, hreachesb⟩ := (inheritsFrom_iff _ _ _).mp hab
  obtain ⟨_, hc, hreachesc⟩ := (inheritsFrom_iff _ _ _).mp hbc
  exact (inheritsFrom_iff _ _ _).mpr ⟨ha, hc, hreachesb.trans hreachesc⟩

theorem inheritsFrom_of_mem_parents (ha : roster.contains a = true)
    (hparent : b ∈ roster.parents a) (hb : roster.contains b = true) :
    roster.inheritsFrom a b = true :=
  (inheritsFrom_iff _ _ _).mpr ⟨ha, hb, Relation.ReflTransGen.single hparent⟩

theorem ancestors_of_not_contains (h : roster.contains a = false) : roster.ancestors a = [] := by
  rw [ancestors, h]
  rfl

theorem nodup_ancestors (roster : Roster) (a : RoleId) : (roster.ancestors a).Nodup := by
  unfold ancestors
  split
  · exact (roster.lineage.nodup_reached a).filter _
  · exact List.nodup_nil

-- One query asks whether the names are known before it sets out, the other drops those that are not
-- on its way.
theorem mem_ancestors_iff (roster : Roster) (a b : RoleId) :
    b ∈ roster.ancestors a ↔ roster.inheritsFrom a b = true ∧ b ≠ a := by
  cases ha : roster.contains a with
  | false => simp [ancestors_of_not_contains ha, inheritsFrom, ha]
  | true =>
      rw [ancestors, if_pos ha, List.mem_filter, Lineage.mem_reached_iff, inheritsFrom_iff, ha,
        decide_eq_true_eq]
      constructor
      · rintro ⟨hreaches, hne, hb⟩
        exact ⟨⟨rfl, hb, hreaches⟩, hne⟩
      · rintro ⟨⟨_, hb, hreaches⟩, hne⟩
        exact ⟨hreaches, hne, hb⟩

theorem seeks_inheritsFrom (ha : roster.contains a = true) (hb : roster.contains b = true) :
    Lineage.Tour.Seeks roster.lineage b (.init a) (roster.inheritsFrom a b) := by
  rw [inheritsFrom, ha, hb, Bool.true_and, Bool.true_and]
  exact roster.lineage.seeks_reached a b

-- Inheritance orders the roles that are known, and those above a role are listed as it says,
-- whatever circles there are and whoever is named without being known.
theorem inheritsFrom_preorders_roles (roster : Roster) :
    (∀ a b, roster.inheritsFrom a b = true ↔
      roster.contains a = true ∧ roster.contains b = true ∧
        Relation.ReflTransGen (fun c p => p ∈ roster.parents c) a b) ∧
    (∀ a, roster.contains a = true → roster.inheritsFrom a a = true) ∧
    (∀ a b c, roster.inheritsFrom a b = true → roster.inheritsFrom b c = true →
      roster.inheritsFrom a c = true) ∧
    (∀ a, roster.contains a = true → ∀ p ∈ roster.parents a, roster.contains p = true →
      roster.inheritsFrom a p = true) ∧
    (∀ a, (∀ b, b ∈ roster.ancestors a ↔ roster.inheritsFrom a b = true ∧ b ≠ a) ∧
      (roster.ancestors a).Nodup ∧ (roster.contains a = false → roster.ancestors a = [])) ∧
    ∀ a b, roster.contains a = true → roster.contains b = true →
      Lineage.Tour.Seeks roster.lineage b (.init a) (roster.inheritsFrom a b) := by
  refine ⟨roster.inheritsFrom_iff, fun _ => inheritsFrom_refl, fun _ _ _ => inheritsFrom_trans,
    fun _ ha _ => inheritsFrom_of_mem_parents ha, fun a => ?_, fun _ _ => seeks_inheritsFrom⟩
  exact ⟨roster.mem_ancestors_iff a, roster.nodup_ancestors a, ancestors_of_not_contains⟩

-- Round the circle the lead comes back to itself, and the parent that nobody knows is no ancestor.
theorem inheritsFrom_preorders_roles_circle :
    circle.inheritsFrom (.named "lead") (.named "lead") = true ∧
    .named "staff" ∈ circle.ancestors (.named "lead") ∧
    .named "ghost" ∈ circle.parents (.named "lead") ∧
    .named "ghost" ∉ circle.ancestors (.named "lead") ∧
    circle.ancestors (.named "ghost") = [] ∧
    Lineage.Tour.Seeks circle.lineage (.named "staff") (.init (.named "lead")) true := by
  obtain ⟨hiff, _, htrans, hparent, hancestors, hseeks⟩ := inheritsFrom_preorders_roles circle
  have hghost : circle.contains (.named "ghost") = false := by decide
  have hup : circle.inheritsFrom (.named "lead") (.named "staff") = true :=
    hparent (.named "lead") (by decide) (.named "staff") (by decide) (by decide)
  have hdown : circle.inheritsFrom (.named "staff") (.named "lead") = true :=
    hparent (.named "staff") (by decide) (.named "lead") (by decide) (by decide)
  have hsearch := hseeks (.named "lead") (.named "staff") (by decide) (by decide)
  obtain ⟨hmem, _, _⟩ := hancestors (.named "lead")
  obtain ⟨_, _, hnone⟩ := hancestors (.named "ghost")
  refine ⟨htrans _ _ _ hup hdown, (hmem _).mpr ⟨hup, by decide⟩, by decide, ?_, hnone hghost, ?_⟩
  · intro h
    obtain ⟨_, hknown, _⟩ := (hiff _ _).mp ((hmem _).mp h).1
    rw [hghost] at hknown
    exact Bool.false_ne_true hknown
  · rwa [hup] at hsearch

end RoleAccess.Roster
