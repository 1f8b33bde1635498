import RoleAccess.Proofs.List.Distinct
import Mathlib.Data.List.Induction

namespace List

variable {α β : Type} [BEq β] [LawfulBEq β]

theorem idxOf_lt_idxOf_append (l m : List β) (x y : β) :
    (l ++ m).idxOf x < (l ++ m).idxOf y ↔
      l.idxOf x < l.idxOf y ∨ x ∉ l ∧ y ∉ l ∧ m.idxOf x < m.idxOf y := by
  by_cases hx : x ∈ l
  · have hlt := idxOf_lt_length_of_mem hx
    by_cases hy : y ∈ l
    · simp [idxOf_append_of_mem, hx, hy]
    · rw [idxOf_append_of_mem hx, idxOf_append_of_notMem hy, idxOf_of_notMem hy]
      simp only [hx, not_true, false_and, or_false]
      omega
  · by_cases hy : y ∈ l
    · have hlt := idxOf_lt_length_of_mem hy
      rw [idxOf_append_of_notMem hx, idxOf_append_of_mem hy, idxOf_of_notMem hx]
      simp only [hy, not_true, false_and, and_false, or_false]
      omega
    · simp [idxOf_append_of_notMem, idxOf_of_notMem, hx, hy]

-- Items keep their order when repetitions are dropped: only the first place of each one counts.
theorem idxOf_lt_idxOf_eraseDups (l : List β) (x y : β) :
    l.eraseDups.idxOf x < l.eraseDups.idxOf y ↔ l.idxOf x < l.idxOf y := by
  induction l using List.reverseRecOn with
  | nil => rfl
  | append_singleton l a ih =>
      rw [eraseDups_append, idxOf_lt_idxOf_append, idxOf_lt_idxOf_append, ih, mem_eraseDups,
        mem_eraseDups]
      by_cases ha : a ∈ l
      · have hremove : [a].removeAll l = [] := by simp [removeAll, ha]
        simp only [hremove, eraseDups_nil, idxOf_nil, Nat.lt_irrefl, and_false, or_false]
        constructor
        · exact .inl
        · rintro (hlt | ⟨hx, hy, hlt⟩)
          · exact hlt
          · -- An item that is not in the list is not the last one either.
            have hxa : a ≠ x := fun h => hx (h ▸ ha)
            have hya : a ≠ y := fun h => hy (h ▸ ha)
            simp [idxOf_cons_ne _ hxa, idxOf_cons_ne _ hya] at hlt
      · have hremove : [a].removeAll l = [a] := by simp [removeAll, ha]
        rw [hremove, eraseDups_cons]
        rfl

-- Of lists that are read one after the other, the first one to have either item decides.
theorem idxOf_lt_idxOf_flatMap (ws : List α) (items : α → List β) (x y : β) :
    (ws.flatMap items).idxOf x < (ws.flatMap items).idxOf y ↔
      ∃ before w after, ws = before ++ w :: after ∧ (∀ a ∈ before, y ∉ items a) ∧
        (items w).idxOf x < (items w).idxOf y := by
  induction ws with
  | nil => simp
  | cons v ws ih =>
      rw [flatMap_cons, idxOf_lt_idxOf_append, ih]
      constructor
      · rintro (hlt | ⟨_, hy, before, w, after, rfl, hbefore, hlt⟩)
        · exact ⟨[], v, ws, rfl, by simp, hlt⟩
        · exact ⟨v :: before, w, after, rfl, forall_mem_cons.mpr ⟨hy, hbefore⟩, hlt⟩
      · rintro ⟨before, w, after, hsplit, hbefore, hlt⟩
        cases before with
        | nil =>
            obtain ⟨rfl, rfl⟩ := cons_eq_cons.mp hsplit
            exact .inl hlt
        | cons b before =>
            obtain ⟨rfl, rfl⟩ := cons_eq_cons.mp hsplit
            obtain ⟨hy, hrest⟩ := forall_mem_cons.mp hbefore
            by_cases hx : x ∈ items v
            · left
              rw [idxOf_of_notMem hy]
              exact idxOf_lt_length_of_mem hx
            · exact .inr ⟨hx, hy, before, w, after, rfl, hrest, hlt⟩

end List
