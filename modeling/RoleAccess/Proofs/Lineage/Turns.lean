import RoleAccess.Proofs.Lineage.Reach
import Mathlib.Data.List.Nodup
import Mathlib.Data.List.Perm.Subperm

namespace RoleAccess

namespace Lineage

variable {α : Type}

-- Whoever is reached in one step or more stands in somebody's list of parents.
theorem Reaches.eq_or_mem_mentioned {l : Lineage α} {a b : α} (h : l.Reaches a b) :
    b = a ∨ b ∈ l.mentioned := by
  cases h with
  | refl => exact .inl rfl
  | tail _ hparent => exact .inr (l.mem_mentioned hparent)

namespace Tour

variable [DecidableEq α]

-- The walk comes to its end after a number of turns, with all whom it has given out by then.
inductive Ends (l : Lineage α) : Nat → Tour α → List α → Prop where
  | idle (t : Tour α) (h : t.turn? l = none) : Ends l 0 t t.given
  | turn (t u : Tour α) (turns : Nat) (given : List α) (h : t.turn? l = some u)
    (hrest : Ends l turns u given) : Ends l (turns + 1) t given

-- A walk on which exactly those have been seen who were given out or are waiting.
def between (done queue : List α) : Tour α := ⟨done ++ queue, queue, done⟩

theorem foldl_notice (start via : α) (ps : List α) (t : Tour α) :
    ps.foldl notice t =
      { t with
        seen := t.seen ++ (look start via t.seen ps).1
        queue := t.queue ++ (look start via t.seen ps).1 } := by
  induction ps generalizing t with
  | nil => simp [look]
  | cons p ps ih =>
      rw [List.foldl_cons, ih]
      by_cases hp : p ∈ t.seen
      · simp [notice, look, hp]
      · simp [notice, look, hp]

theorem turn?_between_cons (l : Lineage α) (start via : α) (done queue : List α) :
    (between done (via :: queue)).turn? l =
      some (between (done ++ [via])
        (queue ++ (look start via (done ++ via :: queue) (l.parents via)).1)) := by
  simp [turn?, between, foldl_notice start via]

-- The turns of the loop are the visits of the walk.
theorem ends_between (l : Lineage α) (start : α) (done queue : List α) :
    Ends l (l.members start done queue).length (between done queue)
      (done ++ l.members start done queue) := by
  induction done, queue using walk.induct l start with
  | case1 done =>
      rw [members_nil, List.append_nil]
      exact .idle (between done []) rfl
  | case2 done via queue _ ih =>
      have hturn := turn?_between_cons l start via done queue
      rw [List.append_assoc, List.singleton_append, ← members_cons] at ih
      rw [members_cons] at ih ⊢
      exact .turn _ _ _ _ hturn ih

-- A search for somebody takes turns until that one is the next to be given out, and does not look
-- at the parents any more then.
inductive Seeks (l : Lineage α) (goal : α) : Tour α → Bool → Prop where
  | idle (t : Tour α) (h : t.queue = []) : Seeks l goal t false
  | found (t : Tour α) (queue : List α) (h : t.queue = goal :: queue) : Seeks l goal t true
  | turn (t u : Tour α) (found : Bool) (hother : t.queue.head? ≠ some goal)
    (h : t.turn? l = some u) (hrest : Seeks l goal u found) : Seeks l goal t found

-- What the search leaves out would not change its answer.
theorem seeks_between (l : Lineage α) (start goal : α) (done queue : List α) :
    Seeks l goal (between done queue) ((l.members start done queue).contains goal) := by
  induction done, queue using walk.induct l start with
  | case1 done =>
      rw [members_nil]
      exact .idle (between done []) rfl
  | case2 done via queue _ ih =>
      rw [members_cons]
      by_cases hvia : goal = via
      · subst hvia
        rw [List.contains_cons, beq_self_eq_true, Bool.true_or]
        exact .found (between done (goal :: queue)) queue rfl
      · have hturn := turn?_between_cons l start via done queue
        have hother : (between done (via :: queue)).queue.head? ≠ some goal :=
          fun h => hvia (Option.some_inj.mp h).symm
        rw [List.contains_cons, beq_eq_false_iff_ne.mpr hvia, Bool.false_or]
        exact .turn _ _ _ hother hturn ih

end Tour

variable [DecidableEq α]

theorem ends_reached (l : Lineage α) (start : α) :
    Tour.Ends l (l.reached start).length (.init start) (l.reached start) :=
  Tour.ends_between l start [] [start]

theorem seeks_reached (l : Lineage α) (start goal : α) :
    Tour.Seeks l goal (.init start) ((l.reached start).contains goal) :=
  Tour.seeks_between l start goal [] [start]

theorem exists_reached_eq_cons (l : Lineage α) (start : α) :
    ∃ rest, l.reached start = start :: rest :=
  ⟨_, l.members_cons start start [] []⟩

-- Apart from the start, the walk comes to nobody but parents, and to each of them once.
theorem length_reached_le (l : Lineage α) (start : α) :
    (l.reached start).length ≤ 1 + l.mentioned.eraseDups.length := by
  obtain ⟨rest, hrest⟩ := l.exists_reached_eq_cons start
  have hnodup := l.nodup_reached start
  rw [hrest, List.nodup_cons] at hnodup
  have hsub : rest ⊆ l.mentioned.eraseDups := by
    intro a ha
    have hreached : a ∈ l.reached start := by
      rw [hrest]
      exact List.mem_cons_of_mem start ha
    have hmentioned := ((l.mem_reached_iff start a).mp hreached).eq_or_mem_mentioned
    have hne : a ≠ start := fun h => hnodup.1 (h ▸ ha)
    exact List.mem_eraseDups.mpr (hmentioned.resolve_left hne)
  have hlength := (List.subperm_of_subset hnodup.2 hsub).length_le
  rw [hrest, List.length_cons]
  omega

end Lineage

namespace Roster

-- The walk up from a role ends, whatever circles there are. It gives out exactly those who can be
-- reached, known or not, and each of them once, and it takes no more turns than there are parents.
theorem tour_gives_out_reachable (roster : Roster) (id : RoleId) :
    ∃ turns rest, Lineage.Tour.Ends roster.lineage turns (.init id) (id :: rest) ∧
      roster.lineage.reached id = id :: rest ∧
      (id :: rest).Nodup ∧
      (∀ a, a ∈ id :: rest ↔ Relation.ReflTransGen (fun c p => p ∈ roster.parents c) id a) ∧
      turns ≤ 1 + roster.mentioned.eraseDups.length := by
  obtain ⟨rest, hrest⟩ := roster.lineage.exists_reached_eq_cons id
  have hends := roster.lineage.ends_reached id
  have hnodup := roster.lineage.nodup_reached id
  have hmem := roster.lineage.mem_reached_iff id
  have hlength := roster.lineage.length_reached_le id
  rw [hrest] at hends hnodup hmem hlength
  exact ⟨_, rest, hends, hrest, hnodup, hmem, hlength⟩

end Roster

end RoleAccess
