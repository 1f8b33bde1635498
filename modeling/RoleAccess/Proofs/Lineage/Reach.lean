import RoleAccess.Lineage
import Mathlib.Logic.Relation

namespace RoleAccess

namespace Sighting

variable {α : Type}

@[simp] theorem member?_member (a : α) : (member a).member? = some a := rfl

@[simp] theorem member?_cycle (via : α) : (cycle via).member? = none := rfl

end Sighting

namespace Lineage

variable {α : Type}

-- `b` is found above `a` in some number of steps up. No step at all counts too.
def Reaches (l : Lineage α) : α → α → Prop := Relation.ReflTransGen l.IsParent

-- What holds of a name and is passed on to parents holds of all that is reached.
theorem Reaches.preserves {l : Lineage α} {P : α → Prop} {a b : α} (h : l.Reaches a b)
    (hstep : ∀ c, P c → ∀ p ∈ l.parents c, P p) (ha : P a) : P b := by
  induction h with
  | refl => exact ha
  | tail _ hparent ih => exact hstep _ ih _ hparent

theorem reaches_congr {l m : Lineage α} (h : ∀ a p, p ∈ l.parents a ↔ p ∈ m.parents a)
    (a b : α) : l.Reaches a b ↔ m.Reaches a b := by
  have hparent : l.IsParent = m.IsParent := by
    funext c p
    exact propext (h c p)
  unfold Reaches
  rw [hparent]

-- Whoever is above somebody is that one or above one of the parents.
theorem reaches_iff_parents (l : Lineage α) (a b : α) :
    l.Reaches a b ↔ a = b ∨ ∃ p ∈ l.parents a, l.Reaches p b := by
  unfold Reaches
  rw [Relation.ReflTransGen.cases_head_iff]
  rfl

theorem Reaches.eq_of_no_parents {l : Lineage α} {a b : α} (h : l.Reaches a b)
    (hparents : l.parents a = []) : b = a := by
  rcases (l.reaches_iff_parents a b).mp h with rfl | ⟨p, hp, _⟩
  · rfl
  · rw [hparents] at hp
    exact False.elim (List.not_mem_nil hp)

variable [DecidableEq α]

theorem mem_look (start via : α) (seen ps : List α) (p : α) :
    p ∈ (look start via seen ps).1 ↔ p ∈ ps ∧ p ∉ seen := by
  induction ps generalizing seen with
  | nil => simp [look]
  | cons q ps ih =>
      unfold look
      split
      · rename_i hq
        simp only [ih, List.mem_cons]
        constructor
        · rintro ⟨hp, hs⟩
          exact ⟨.inr hp, hs⟩
        · rintro ⟨rfl | hp, hs⟩
          · exact absurd hq hs
          · exact ⟨hp, hs⟩
      · rename_i hq
        simp only [List.mem_cons, ih, List.mem_append, List.not_mem_nil, or_false, not_or]
        constructor
        · rintro (rfl | ⟨hp, hs, _⟩)
          · exact ⟨.inl rfl, hq⟩
          · exact ⟨.inr hp, hs⟩
        · rintro ⟨hp, hs⟩
          by_cases hpq : p = q
          · exact .inl hpq
          · exact .inr ⟨hp.resolve_left hpq, hs, hpq⟩

theorem nodup_look (start via : α) (seen ps : List α) : (look start via seen ps).1.Nodup := by
  induction ps generalizing seen with
  | nil => simp [look]
  | cons q ps ih =>
      unfold look
      split
      · exact ih seen
      · refine List.nodup_cons.mpr ⟨?_, ih (seen ++ [q])⟩
        rw [mem_look]
        simp

theorem member?_look (start via : α) (seen ps : List α) :
    (look start via seen ps).2.filterMap (·.member?) = [] := by
  induction ps generalizing seen with
  | nil => simp [look]
  | cons q ps ih =>
      unfold look
      split
      · by_cases hq : q = start <;> simp only [hq, if_true, if_false, ih,
          List.filterMap_cons, Sighting.member?_cycle]
      · exact ih (seen ++ [q])

-- A walk asks only for the parents of those it comes to, who all can be reached.
theorem walk_congr {l m : Lineage α} {start : α}
    (h : ∀ a, l.Reaches start a → l.parents a = m.parents a) (done queue : List α)
    (hqueue : ∀ a ∈ queue, l.Reaches start a) :
    l.walk start done queue = m.walk start done queue := by
  induction done, queue using walk.induct l start with
  | case1 done => rw [walk, walk]
  | case2 done via queue _ ih =>
      obtain ⟨hvia, hrest⟩ := List.forall_mem_cons.mp hqueue
      rw [walk, walk, ← h via hvia]
      refine congrArg _ (ih ?_)
      intro a ha
      rcases List.mem_append.mp ha with hwaiting | hfound
      · exact hrest a hwaiting
      · exact hvia.tail ((mem_look _ _ _ _ _).mp hfound).1

theorem trace_congr_of_reaches {l m : Lineage α} {start : α}
    (h : ∀ a, l.Reaches start a → l.parents a = m.parents a) :
    l.trace start = m.trace start := by
  refine walk_congr h [] [start] fun a ha => ?_
  rw [List.mem_singleton.mp ha]
  exact Relation.ReflTransGen.refl

-- What is mentioned elsewhere plays no part in a walk.
theorem trace_congr {l m : Lineage α} (h : l.parents = m.parents) (start : α) :
    l.trace start = m.trace start :=
  trace_congr_of_reaches fun a _ => congrFun h a

-- The members that are still to come when `done` have been visited and `queue` is waiting.
def members (l : Lineage α) (start : α) (done queue : List α) : List α :=
  (l.walk start done queue).filterMap (·.member?)

theorem members_nil (l : Lineage α) (start : α) (done : List α) :
    l.members start done [] = [] := by
  simp [members, walk]

theorem members_cons (l : Lineage α) (start via : α) (done queue : List α) :
    l.members start done (via :: queue) =
      via :: l.members start (done ++ [via])
        (queue ++ (look start via (done ++ via :: queue) (l.parents via)).1) := by
  unfold members
  rw [walk]
  simp only [List.filterMap_append, List.filterMap_cons, Sighting.member?_member, member?_look,
    List.cons_append, List.nil_append]

-- Whatever one visit preserves still holds at the end, when nobody is waiting any more.
theorem walk_preserves (l : Lineage α) (start : α) {P : List α → List α → Prop}
    (hstep : ∀ done via queue, P done (via :: queue) →
      P (done ++ [via]) (queue ++ (look start via (done ++ via :: queue) (l.parents via)).1))
    (done queue : List α) (h : P done queue) : P (done ++ l.members start done queue) [] := by
  induction done, queue using walk.induct l start with
  | case1 done => simpa [members_nil] using h
  | case2 done via queue _ ih =>
      rw [members_cons]
      have hnext := ih (hstep done via queue h)
      rwa [List.append_assoc, List.singleton_append] at hnext

-- Nobody is seen twice, all who are seen can be reached, and the parents of those visited have
-- been seen.
structure WalkInvariant (l : Lineage α) (start : α) (done queue : List α) : Prop where
  nodup : (done ++ queue).Nodup
  reached : ∀ a ∈ done ++ queue, l.Reaches start a
  closed : ∀ a ∈ done, ∀ p ∈ l.parents a, p ∈ done ++ queue
  start_mem : start ∈ done ++ queue

omit [DecidableEq α] in
theorem WalkInvariant.init (l : Lineage α) (start : α) : l.WalkInvariant start [] [start] where
  nodup := by simp
  reached a ha := by
    rw [List.nil_append, List.mem_singleton] at ha
    exact ha ▸ Relation.ReflTransGen.refl
  closed := by simp
  start_mem := by simp

omit [DecidableEq α] in
-- A visit only adds to those who have been seen, and at the end.
theorem seen_after_visit (via : α) (done queue found : List α) :
    done ++ [via] ++ (queue ++ found) = done ++ via :: queue ++ found := by
  simp

theorem WalkInvariant.step {l : Lineage α} {start via : α} {done queue : List α}
    (h : l.WalkInvariant start done (via :: queue)) :
    l.WalkInvariant start (done ++ [via])
      (queue ++ (look start via (done ++ via :: queue) (l.parents via)).1) := by
  refine ⟨?_, ?_, ?_, ?_⟩ <;> rw [seen_after_visit] at *
  · refine List.nodup_append.mpr ⟨h.nodup, nodup_look _ _ _ _, ?_⟩
    rintro a ha b hb rfl
    exact ((mem_look _ _ _ _ _).mp hb).2 ha
  · intro a ha
    rcases List.mem_append.mp ha with hseen | hfound
    · exact h.reached a hseen
    · have hvia := h.reached via (by simp)
      exact hvia.tail ((mem_look _ _ _ _ _).mp hfound).1
  · intro a ha p hp
    rcases List.mem_append.mp ha with hdone | hlast
    · exact List.mem_append_left _ (h.closed a hdone p hp)
    · rw [List.mem_singleton] at hlast
      subst hlast
      rw [List.mem_append, mem_look]
      exact (Classical.em _).imp_right fun hseen => ⟨hp, hseen⟩
  · exact List.mem_append_left _ h.start_mem

theorem reached_eq (l : Lineage α) (start : α) : l.reached start = l.members start [] [start] :=
  rfl

theorem reached_invariant (l : Lineage α) (start : α) :
    l.WalkInvariant start (l.reached start) [] := by
  rw [reached_eq, ← List.nil_append (l.members start [] [start])]
  exact l.walk_preserves start (fun _ _ _ h => h.step) _ _ (.init l start)

-- The walk comes to exactly those who are above the start, the start included.
theorem mem_reached_iff (l : Lineage α) (start a : α) :
    a ∈ l.reached start ↔ l.Reaches start a := by
  have hinv := l.reached_invariant start
  have hclosed := hinv.closed
  have hstart := hinv.start_mem
  rw [List.append_nil] at hclosed hstart
  constructor
  · intro ha
    exact hinv.reached a (by simpa using ha)
  · intro ha
    exact ha.preserves hclosed hstart

theorem nodup_reached (l : Lineage α) (start : α) : (l.reached start).Nodup := by
  simpa using (l.reached_invariant start).nodup

end Lineage

end RoleAccess
