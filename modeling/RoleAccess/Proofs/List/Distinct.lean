import Mathlib.Data.List.Nodup
import Mathlib.Data.List.Perm.Basic

namespace List

variable {α : Type} [BEq α] [LawfulBEq α]

-- By induction on the length: what is left after the head is a filtered part of the tail.
theorem nodup_eraseDups (l : List α) : l.eraseDups.Nodup := by
  induction hlength : l.length using Nat.strongRecOn generalizing l with
  | ind n ih =>
      cases l with
      | nil => simp
      | cons a l =>
          rw [eraseDups_cons]
          have hle := length_filter_le (fun b => !b == a) l
          refine nodup_cons.mpr ⟨?_, ih _ ?_ _ rfl⟩
          · simp [mem_eraseDups, mem_filter]
          · simp only [length_cons] at hlength
            omega

theorem eraseDups_of_nodup {l : List α} (h : l.Nodup) : l.eraseDups = l := by
  induction l with
  | nil => rfl
  | cons a l ih =>
      obtain ⟨ha, hl⟩ := nodup_cons.mp h
      have hfilter : l.filter (fun b => !b == a) = l := by
        rw [filter_eq_self]
        intro b hb
        have hne : b ≠ a := fun hba => ha (hba ▸ hb)
        simpa using hne
      rw [eraseDups_cons, hfilter, ih hl]

theorem eraseDups_eraseDups (l : List α) : l.eraseDups.eraseDups = l.eraseDups :=
  eraseDups_of_nodup (nodup_eraseDups l)

-- By induction on the length, as the head takes its equals out of the tail.
theorem filter_eraseDups (p : α → Bool) (l : List α) :
    l.eraseDups.filter p = (l.filter p).eraseDups := by
  induction hlength : l.length using Nat.strongRecOn generalizing l with
  | ind n ih =>
      cases l with
      | nil => rfl
      | cons a l =>
          have hle := length_filter_le (fun b => !b == a) l
          have hlt : (l.filter fun b => !b == a).length < n := by
            simp only [length_cons] at hlength
            omega
          rw [eraseDups_cons, filter_cons, filter_cons, ih _ hlt _ rfl, filter_filter]
          by_cases ha : p a = true
          · rw [if_pos ha, if_pos ha, eraseDups_cons, filter_filter]
            simp only [Bool.and_comm]
          · have hrest : l.filter (fun b => p b && !b == a) = l.filter p := by
              apply filter_congr
              intro b _
              by_cases hb : b = a
              · simp [hb, ha]
              · simp [hb]
            rw [if_neg ha, if_neg ha, hrest]

theorem eraseDups_append_right (l m : List α) :
    (l ++ m.eraseDups).eraseDups = (l ++ m).eraseDups := by
  rw [eraseDups_append, eraseDups_append]
  unfold removeAll
  rw [filter_eraseDups, eraseDups_eraseDups]

theorem eraseDups_append_left (l m : List α) :
    (l.eraseDups ++ m).eraseDups = (l ++ m).eraseDups := by
  have hremove : m.removeAll l.eraseDups = m.removeAll l := by
    unfold removeAll
    apply filter_congr
    intro a _
    simp [mem_eraseDups]
  rw [eraseDups_append, eraseDups_append, eraseDups_eraseDups, hremove]

theorem eraseDups_append_of_subset {l m : List α} (h : m ⊆ l) :
    (l ++ m).eraseDups = l.eraseDups := by
  have hremove : m.removeAll l = [] := by
    unfold removeAll
    rw [filter_eq_nil_iff]
    intro a ha
    simpa using h ha
  rw [eraseDups_append, hremove, eraseDups_nil, append_nil]

-- Of two lists without repetitions the second one loses what is in the first.
theorem eraseDups_append_of_nodup {l m : List α} (hl : l.Nodup) (hm : m.Nodup) :
    (l ++ m).eraseDups = l ++ m.filter (· ∉ l) := by
  have hrest : (m.removeAll l).Nodup := hm.filter _
  have hremove : m.removeAll l = m.filter (· ∉ l) := by
    unfold removeAll
    apply filter_congr
    intro a _
    simp
  rw [eraseDups_append, eraseDups_of_nodup hl, eraseDups_of_nodup hrest, hremove]

theorem eraseDups_perm {l m : List α} (h : ∀ a, a ∈ l ↔ a ∈ m) :
    l.eraseDups.Perm m.eraseDups := by
  rw [perm_ext_iff_of_nodup (nodup_eraseDups l) (nodup_eraseDups m)]
  intro a
  rw [mem_eraseDups, mem_eraseDups, h]

end List

namespace RoleAccess

theorem pairwise_le_mergeSort (l : List String) : l.mergeSort.Pairwise (· ≤ ·) := by
  have htrans : ∀ a b c : String, decide (a ≤ b) → decide (b ≤ c) → decide (a ≤ c) := by
    intro a b c hab hbc
    rw [decide_eq_true_eq] at *
    exact String.le_trans hab hbc
  have htotal : ∀ a b : String, decide (a ≤ b) || decide (b ≤ a) := by
    intro a b
    rw [Bool.or_eq_true, decide_eq_true_eq, decide_eq_true_eq]
    exact String.le_total a b
  have h := List.pairwise_mergeSort htrans htotal l
  simpa only [decide_eq_true_eq] using h

theorem mergeSort_eraseDups_congr {l m : List String} (h : ∀ t, t ∈ l ↔ t ∈ m) :
    l.eraseDups.mergeSort = m.eraseDups.mergeSort := by
  have hperm : l.eraseDups.mergeSort.Perm m.eraseDups.mergeSort :=
    ((List.mergeSort_perm _ _).trans (List.eraseDups_perm h)).trans
      (List.mergeSort_perm _ _).symm
  exact hperm.eq_of_pairwise (fun _ _ _ _ => String.le_antisymm)
    (pairwise_le_mergeSort _) (pairwise_le_mergeSort _)

end RoleAccess
