import RoleAccess.Proofs.Lineage.Reach
import RoleAccess.Proofs.List.Order
import Mathlib.Order.Lattice.Nat

namespace RoleAccess.Lineage

variable {α β : Type} {l : Lineage α} {start : α}

-- Those who are found exactly `n` steps above the start, once for each way that leads to them.
def above (l : Lineage α) (start : α) : Nat → List α
  | 0 => [start]
  | n + 1 => (l.above start n).flatMap l.parents

-- The steps on the shortest way up to somebody with a property. It means nothing where there is
-- nobody to be reached who has it.
noncomputable def stepsTo (l : Lineage α) (start : α) (P : α → Prop) : Nat :=
  sInf {n | ∃ a ∈ l.above start n, P a}

noncomputable def distance (l : Lineage α) (start a : α) : Nat := l.stepsTo start (· = a)

theorem mem_above_succ {n : Nat} {p : α} :
    p ∈ l.above start (n + 1) ↔ ∃ a ∈ l.above start n, p ∈ l.parents a :=
  List.mem_flatMap

theorem reaches_iff_above (l : Lineage α) (start a : α) :
    l.Reaches start a ↔ ∃ n, a ∈ l.above start n := by
  constructor
  · intro h
    induction h with
    | refl => exact ⟨0, List.mem_singleton_self start⟩
    | tail _ hparent ih =>
        obtain ⟨n, hn⟩ := ih
        exact ⟨n + 1, mem_above_succ.mpr ⟨_, hn, hparent⟩⟩
  · rintro ⟨n, hn⟩
    induction n generalizing a with
    | zero =>
        rw [List.mem_singleton.mp hn]
        exact Relation.ReflTransGen.refl
    | succ n ih =>
        obtain ⟨c, hc, hparent⟩ := mem_above_succ.mp hn
        exact (ih c hc).tail hparent

section StepsTo

variable {P : α → Prop} {n : Nat}

theorem stepsTo_le {a : α} (h : a ∈ l.above start n) (ha : P a) : l.stepsTo start P ≤ n :=
  Nat.sInf_le ⟨a, h, ha⟩

theorem exists_mem_above_stepsTo {a : α} (h : l.Reaches start a) (ha : P a) :
    ∃ b ∈ l.above start (l.stepsTo start P), P b := by
  obtain ⟨n, hn⟩ := (l.reaches_iff_above start a).mp h
  have hsome : {n | ∃ b ∈ l.above start n, P b}.Nonempty := ⟨n, a, hn, ha⟩
  exact Nat.sInf_mem hsome

theorem stepsTo_eq (h : ∃ a ∈ l.above start n, P a)
    (hless : ∀ m < n, ∀ a ∈ l.above start m, ¬ P a) : l.stepsTo start P = n := by
  obtain ⟨a, hn, ha⟩ := h
  have hreaches := (l.reaches_iff_above start a).mpr ⟨n, hn⟩
  obtain ⟨b, hb, hpb⟩ := exists_mem_above_stepsTo hreaches ha
  have hle := stepsTo_le hn ha
  by_contra hne
  exact hless _ (by omega) b hb hpb

end StepsTo

theorem distance_le {a : α} {n : Nat} (h : a ∈ l.above start n) : l.distance start a ≤ n :=
  stepsTo_le h rfl

theorem mem_above_distance {a : α} (h : l.Reaches start a) :
    a ∈ l.above start (l.distance start a) := by
  obtain ⟨b, hb, rfl⟩ := exists_mem_above_stepsTo (P := (· = a)) h rfl
  exact hb

theorem distance_parent_le {a p : α} (h : l.Reaches start a) (hp : p ∈ l.parents a) :
    l.distance start p ≤ l.distance start a + 1 :=
  distance_le (mem_above_succ.mpr ⟨a, mem_above_distance h, hp⟩)

theorem stepsTo_le_distance {P : α → Prop} {a : α} (h : l.Reaches start a) (ha : P a) :
    l.stepsTo start P ≤ l.distance start a :=
  stepsTo_le (mem_above_distance h) ha

-- Among those who have a property there is a nearest one, at just that many steps.
theorem exists_nearest {P : α → Prop} {a : α} (h : l.Reaches start a) (ha : P a) :
    ∃ b, l.Reaches start b ∧ P b ∧ l.distance start b = l.stepsTo start P := by
  obtain ⟨b, habove, hb⟩ := exists_mem_above_stepsTo h ha
  have hreaches : l.Reaches start b := (l.reaches_iff_above start b).mpr ⟨_, habove⟩
  have hle := stepsTo_le_distance hreaches hb
  exact ⟨b, hreaches, hb, Nat.le_antisymm (distance_le habove) hle⟩

-- Whoever has been seen stands in the order of distance, and those who wait are on two levels at
-- most, one above the other.
structure Levelled (l : Lineage α) (start : α) (done queue : List α) : Prop
    extends l.WalkInvariant start done queue where
  sorted : (done ++ queue).Pairwise fun a b => l.distance start a ≤ l.distance start b
  span : ∀ a ∈ queue, ∀ b ∈ queue, l.distance start b ≤ l.distance start a + 1

theorem Levelled.init (l : Lineage α) (start : α) : l.Levelled start [] [start] where
  toWalkInvariant := .init l start
  sorted := List.pairwise_singleton _ _
  span a ha b hb := by
    rw [List.mem_singleton.mp ha, List.mem_singleton.mp hb]
    omega

namespace Levelled

variable {via : α} {done queue : List α}

theorem le_of_mem_queue (h : l.Levelled start done (via :: queue)) :
    ∀ a ∈ via :: queue, l.distance start via ≤ l.distance start a := by
  obtain ⟨_, hqueue, _⟩ := List.pairwise_append.mp h.sorted
  exact List.forall_mem_cons.mpr ⟨Nat.le_refl _, (List.pairwise_cons.mp hqueue).1⟩

theorem le_of_mem_done (h : l.Levelled start done (via :: queue)) :
    ∀ a ∈ done, l.distance start a ≤ l.distance start via := by
  obtain ⟨_, _, hdone⟩ := List.pairwise_append.mp h.sorted
  exact fun a ha => hdone a ha via List.mem_cons_self

-- By induction on the steps: whoever is nearer than the first in the queue is not waiting any
-- more, so the parents have been seen.
theorem above_subset_seen (h : l.Levelled start done (via :: queue)) {n : Nat}
    (hn : n ≤ l.distance start via) : l.above start n ⊆ done ++ via :: queue := by
  induction n with
  | zero =>
      intro a ha
      rw [List.mem_singleton.mp ha]
      exact h.start_mem
  | succ n ih =>
      intro p hp
      obtain ⟨a, ha, hparent⟩ := mem_above_succ.mp hp
      rcases List.mem_append.mp (ih (by omega) ha) with hdone | hwaiting
      · exact h.closed a hdone p hparent
      · have hle := h.le_of_mem_queue a hwaiting
        have hnear := distance_le ha
        omega

variable [DecidableEq α]

-- A parent that comes up now for the first time is on the next level: nobody who is nearer is left.
theorem distance_of_mem_look (h : l.Levelled start done (via :: queue)) {p : α}
    (hp : p ∈ (look start via (done ++ via :: queue) (l.parents via)).1) :
    l.distance start p = l.distance start via + 1 := by
  obtain ⟨hparent, hunseen⟩ := (mem_look _ _ _ _ _).mp hp
  have hvia : l.Reaches start via := h.reached via (by simp)
  have hle := distance_parent_le hvia hparent
  have hreaches : l.Reaches start p := hvia.tail hparent
  by_contra hne
  exact hunseen (h.above_subset_seen (by omega) (mem_above_distance hreaches))

theorem step (h : l.Levelled start done (via :: queue)) :
    l.Levelled start (done ++ [via])
      (queue ++ (look start via (done ++ via :: queue) (l.parents via)).1) := by
  have hfound := fun p => h.distance_of_mem_look (p := p)
  have hdone := h.le_of_mem_done
  have hqueue := h.le_of_mem_queue
  have hspan := h.span via List.mem_cons_self
  refine ⟨h.toWalkInvariant.step, ?_, ?_⟩
  · rw [seen_after_visit]
    refine List.pairwise_append.mpr ⟨h.sorted, ?_, ?_⟩
    · refine List.pairwise_of_forall_mem_list fun a ha b hb => ?_
      rw [hfound a ha, hfound b hb]
    · intro a ha p hp
      rw [hfound p hp]
      rcases List.mem_append.mp ha with hvisited | hwaiting
      · have hle := hdone a hvisited
        omega
      · exact hspan a hwaiting
  · intro a ha b hb
    have hage : l.distance start via ≤ l.distance start a := by
      rcases List.mem_append.mp ha with hwaiting | hnew
      · exact hqueue a (List.mem_cons_of_mem via hwaiting)
      · rw [hfound a hnew]
        omega
    have hble : l.distance start b ≤ l.distance start via + 1 := by
      rcases List.mem_append.mp hb with hwaiting | hnew
      · exact hspan b (List.mem_cons_of_mem via hwaiting)
      · rw [hfound b hnew]
    omega

end Levelled

variable [DecidableEq α] [DecidableEq β]

theorem pairwise_distance_reached (l : Lineage α) (start : α) :
    (l.reached start).Pairwise fun a b => l.distance start a ≤ l.distance start b := by
  have hrun := l.walk_preserves start (fun _ _ _ h => Levelled.step h) _ _ (Levelled.init l start)
  rw [List.nil_append, ← reached_eq] at hrun
  simpa using hrun.sorted

-- Somebody has the one item, in front of the other if that one is there too, and nobody who was
-- visited earlier has the other.
def ComesUpFirst (l : Lineage α) (start : α) (items : α → List β) (x y : β) : Prop :=
  ∃ before via after, l.reached start = before ++ via :: after ∧ (∀ a ∈ before, y ∉ items a) ∧
    (items via).idxOf x < (items via).idxOf y

theorem idxOf_lt_idxOf_collected (l : Lineage α) (start : α) (items : α → List β) (x y : β) :
    ((l.reached start).flatMap items).eraseDups.idxOf x <
        ((l.reached start).flatMap items).eraseDups.idxOf y ↔
      l.ComesUpFirst start items x y := by
  rw [List.idxOf_lt_idxOf_eraseDups, List.idxOf_lt_idxOf_flatMap]
  rfl

-- Nobody who stands on the walk in front of a nearest provider, or is the provider, has an item
-- that is farther away.
theorem comesUpFirst_of_stepsTo_lt {items : α → List β} {x y : β} {a : α}
    (ha : l.Reaches start a) (hx : x ∈ items a)
    (hlt : l.stepsTo start (x ∈ items ·) < l.stepsTo start (y ∈ items ·)) :
    l.ComesUpFirst start items x y := by
  obtain ⟨via, hvia, hprovides, hnearest⟩ := exists_nearest (P := (x ∈ items ·)) ha hx
  have hfar : ∀ b ∈ l.reached start, l.distance start b ≤ l.distance start via →
      y ∉ items b := by
    intro b hb hle hy
    have hnear : l.stepsTo start (y ∈ items ·) ≤ l.distance start b :=
      stepsTo_le_distance ((l.mem_reached_iff start b).mp hb) hy
    omega
  have hmem := (l.mem_reached_iff start via).mpr hvia
  have hpairwise := l.pairwise_distance_reached start
  obtain ⟨before, after, hsplit⟩ := List.append_of_mem hmem
  refine ⟨before, via, after, hsplit, ?_, ?_⟩
  · rw [hsplit] at hfar hpairwise
    intro b hb
    have hle := (List.pairwise_append.mp hpairwise).2.2 b hb via List.mem_cons_self
    exact hfar b (List.mem_append_left _ hb) hle
  · rw [List.idxOf_of_notMem (hfar via hmem (Nat.le_refl _))]
    exact List.idxOf_lt_length_of_mem hprovides

end RoleAccess.Lineage
