import Mathlib.Data.List.Forall2

namespace List

section Relations

variable {α : Type} {S : α → α → Prop} {xs ys zs : List α}

theorem forall₂_symm (h : Forall₂ S xs ys) (hS : ∀ x ∈ xs, ∀ y, S x y → S y x) :
    Forall₂ S ys xs := by
  have hboth := (forall₂_and_left _ _).mpr ⟨hS, h⟩
  exact (hboth.imp fun x y hxy => hxy.1 y hxy.2).flip

theorem forall₂_trans (hxy : Forall₂ S xs ys) (hyz : Forall₂ S ys zs)
    (hS : ∀ x ∈ xs, ∀ y z, S x y → S y z → S x z) : Forall₂ S xs zs := by
  induction hxy generalizing zs with
  | nil => exact hyz
  | cons hhead _ ih =>
      cases hyz with
      | cons hhead' htail' =>
          obtain ⟨hx, hrest⟩ := forall_mem_cons.mp hS
          exact .cons (hx _ _ hhead hhead') (ih htail' hrest)

end Relations

-- Each item of either list has one in the other that it goes with, in whatever order they are.
structure Corresponds {α β : Type} (S : α → β → Prop) (xs : List α) (ys : List β) : Prop where
  left : ∀ x ∈ xs, ∃ y ∈ ys, S x y
  right : ∀ y ∈ ys, ∃ x ∈ xs, S x y

namespace Corresponds

section Relations

variable {α : Type} {S : α → α → Prop} {xs ys zs : List α}

theorem refl (hS : ∀ x ∈ xs, S x x) : Corresponds S xs xs :=
  ⟨fun x hx => ⟨x, hx, hS x hx⟩, fun x hx => ⟨x, hx, hS x hx⟩⟩

theorem symm (h : Corresponds S xs ys) (hS : ∀ x ∈ xs, ∀ y, S x y → S y x) :
    Corresponds S ys xs := by
  refine ⟨fun y hy => ?_, fun x hx => ?_⟩
  · obtain ⟨x, hx, hxy⟩ := h.right y hy
    exact ⟨x, hx, hS x hx y hxy⟩
  · obtain ⟨y, hy, hxy⟩ := h.left x hx
    exact ⟨y, hy, hS x hx y hxy⟩

theorem trans (hxy : Corresponds S xs ys) (hyz : Corresponds S ys zs)
    (hS : ∀ x ∈ xs, ∀ y z, S x y → S y z → S x z) : Corresponds S xs zs := by
  refine ⟨fun x hx => ?_, fun z hz => ?_⟩
  · obtain ⟨y, hy, hSxy⟩ := hxy.left x hx
    obtain ⟨z, hz, hSyz⟩ := hyz.left y hy
    exact ⟨z, hz, hS x hx y z hSxy hSyz⟩
  · obtain ⟨y, hy, hSyz⟩ := hyz.right z hz
    obtain ⟨x, hx, hSxy⟩ := hxy.right y hy
    exact ⟨x, hx, hS x hx y z hSxy hSyz⟩

end Relations

variable {α β : Type} {S : α → β → Prop} {xs : List α} {ys : List β}

theorem of_forall₂ (h : Forall₂ S xs ys) : Corresponds S xs ys := by
  induction h with
  | nil => exact ⟨fun _ hx => absurd hx not_mem_nil, fun _ hy => absurd hy not_mem_nil⟩
  | cons hhead _ ih =>
      refine ⟨forall_mem_cons.mpr ⟨⟨_, mem_cons_self, hhead⟩, fun x hx => ?_⟩,
        forall_mem_cons.mpr ⟨⟨_, mem_cons_self, hhead⟩, fun y hy => ?_⟩⟩
      · obtain ⟨y, hy, hxy⟩ := ih.left x hx
        exact ⟨y, mem_cons_of_mem _ hy, hxy⟩
      · obtain ⟨x, hx, hxy⟩ := ih.right y hy
        exact ⟨x, mem_cons_of_mem _ hx, hxy⟩

-- Nobody goes with the same one as somebody else, so those who are left find theirs in the rest.
theorem length_le (hdistinct : xs.Pairwise fun x x' => ∀ y, S x y → ¬ S x' y)
    (h : ∀ x ∈ xs, ∃ y ∈ ys, S x y) : xs.length ≤ ys.length := by
  induction xs generalizing ys with
  | nil => exact Nat.zero_le _
  | cons x xs ih =>
      obtain ⟨hx, hxs⟩ := pairwise_cons.mp hdistinct
      obtain ⟨y, hy, hxy⟩ := h x mem_cons_self
      obtain ⟨front, back, rfl⟩ := append_of_mem hy
      have hrest : ∀ x' ∈ xs, ∃ y' ∈ front ++ back, S x' y' := by
        intro x' hx'
        obtain ⟨y', hy', hxy'⟩ := h x' (mem_cons_of_mem x hx')
        have hne : y' ≠ y := fun heq => hx x' hx' y hxy (heq ▸ hxy')
        exact ⟨y', by simpa [hne] using hy', hxy'⟩
      have hle := ih hxs hrest
      simp only [length_append, length_cons] at hle ⊢
      omega

-- If one in `ys` were left over, the others would be too few.
theorem of_length_le (hdistinct : xs.Pairwise fun x x' => ∀ y, S x y → ¬ S x' y)
    (h : ∀ x ∈ xs, ∃ y ∈ ys, S x y) (hlength : ys.length ≤ xs.length) :
    Corresponds S xs ys := by
  refine ⟨h, fun y hy => ?_⟩
  by_contra hnone
  obtain ⟨front, back, rfl⟩ := append_of_mem hy
  have hrest : ∀ x ∈ xs, ∃ y' ∈ front ++ back, S x y' := by
    intro x hx
    obtain ⟨y', hy', hxy'⟩ := h x hx
    have hne : y' ≠ y := fun heq => hnone ⟨x, hx, heq ▸ hxy'⟩
    exact ⟨y', by simpa [hne] using hy', hxy'⟩
  have hle := length_le hdistinct hrest
  simp only [length_append, length_cons] at hle hlength
  omega

-- Where no two share a match, it is enough to count and to look in one direction.
theorem iff_length_eq (hxs : xs.Pairwise fun x x' => ∀ y, S x y → ¬ S x' y)
    (hys : ys.Pairwise fun y y' => ∀ x, S x y → ¬ S x y') :
    Corresponds S xs ys ↔ xs.length = ys.length ∧ ∀ x ∈ xs, ∃ y ∈ ys, S x y := by
  constructor
  · intro h
    have hle := length_le hxs h.left
    have hge := length_le (S := fun y x => S x y) hys h.right
    exact ⟨Nat.le_antisymm hle hge, h.left⟩
  · rintro ⟨hlength, h⟩
    exact of_length_le hxs h (Nat.le_of_eq hlength.symm)

end Corresponds

end List
