import RoleAccess.Roster

namespace RoleAccess

-- Who inherits from whom. Every member has a list of parents, which may run in circles, repeat
-- a parent and name one that nobody knows. All parents together are finitely many.
structure Lineage (α : Type) where
  parents : α → List α
  mentioned : List α
  mem_mentioned : ∀ {a p}, p ∈ parents a → p ∈ mentioned

-- What a walk up the parents comes across: a member, or an entry in the parent list of `via`
-- that leads back to where the walk began.
inductive Sighting (α : Type) where
  | member (a : α)
  | cycle (via : α)
  deriving DecidableEq, Repr

namespace Sighting

variable {α : Type}

def member? : Sighting α → Option α
  | member a => some a
  | cycle _ => none

def cycle? : Sighting α → Option α
  | member _ => none
  | cycle via => some via

end Sighting

namespace Lineage

-- A walk on its way, turn by turn: who has been seen by now, who is waiting, and who was given
-- out.
structure Tour (α : Type) where
  seen : List α
  queue : List α
  given : List α

def Tour.init {α : Type} (start : α) : Tour α := ⟨[start], [start], []⟩

variable {α : Type} [DecidableEq α]

-- Reads the parent list of `via`. Gives the parents that are not yet in `seen`, each one once,
-- and a sighting for every entry that is the start of the walk.
def look (start via : α) : List α → List α → List α × List (Sighting α)
  | _, [] => ([], [])
  | seen, p :: ps =>
    if p ∈ seen then
      let (found, cycles) := look start via seen ps
      (found, if p = start then .cycle via :: cycles else cycles)
    else
      let (found, cycles) := look start via (seen ++ [p]) ps
      (p :: found, cycles)

-- How many of the parents mentioned anywhere are still to be seen, the bound of the walk.
def unseen (l : Lineage α) (seen : List α) : Nat :=
  (l.mentioned.filter (· ∉ seen)).length

theorem unseen_append_lt (l : Lineage α) {seen : List α} {p : α}
    (hp : p ∈ l.mentioned) (hs : p ∉ seen) : l.unseen (seen ++ [p]) < l.unseen seen := by
  unfold unseen
  generalize l.mentioned = names at hp
  induction names with
  | nil => simp at hp
  | cons x xs ih =>
    -- one more seen name never adds to what is left
    have hle : (xs.filter (· ∉ seen ++ [p])).length ≤ (xs.filter (· ∉ seen)).length := by
      rw [← List.countP_eq_length_filter, ← List.countP_eq_length_filter]
      apply List.countP_mono_left
      intro y _ hy
      simp only [List.mem_append, not_or, decide_eq_true_eq] at hy ⊢
      exact hy.1
    by_cases hx : x = p
    · subst hx
      rw [List.filter_cons_of_neg (by simp), List.filter_cons_of_pos (by simpa using hs)]
      simp only [List.length_cons]
      omega
    · have hmem : p ∈ xs := by
        cases hp with
        | head => exact absurd rfl hx
        | tail _ h => exact h
      have hlt := ih hmem
      by_cases hxs : x ∈ seen
      · rw [List.filter_cons_of_neg (by simp [hxs]), List.filter_cons_of_neg (by simp [hxs])]
        exact hlt
      · rw [List.filter_cons_of_pos (by simp [hxs, hx]), List.filter_cons_of_pos (by simp [hxs])]
        simp only [List.length_cons]
        omega

-- Every parent that is found takes one from the unseen ones.
theorem unseen_look (l : Lineage α) (start via : α) (ps seen : List α)
    (h : ∀ p ∈ ps, p ∈ l.mentioned) :
    2 * l.unseen (seen ++ (look start via seen ps).1) + (look start via seen ps).1.length
      ≤ 2 * l.unseen seen := by
  induction ps generalizing seen with
  | nil => simp [look]
  | cons p ps ih =>
    have hps : ∀ q ∈ ps, q ∈ l.mentioned := fun q hq => h q (List.mem_cons_of_mem _ hq)
    unfold look
    split
    · exact ih seen hps
    · rename_i hp
      have hrest := ih (seen ++ [p]) hps
      have hlt := l.unseen_append_lt (h p List.mem_cons_self) hp
      simp only [List.length_cons, List.append_assoc, List.singleton_append] at *
      omega

-- Visits the queue from the front and puts the parents of each member that were not seen
-- before at its end. A member is sighted before its parents are looked at.
def walk (l : Lineage α) (start : α) (done : List α) : List α → List (Sighting α)
  | [] => []
  | via :: queue =>
    let found := look start via (done ++ via :: queue) (l.parents via)
    .member via :: found.2 ++ l.walk start (done ++ [via]) (queue ++ found.1)
termination_by queue => 2 * l.unseen (done ++ queue) + queue.length
decreasing_by
  have h := l.unseen_look start via (l.parents via) (done ++ via :: queue)
    (fun _ => l.mem_mentioned)
  simp only [List.append_assoc, List.length_append, List.length_cons, List.cons_append,
    List.nil_append] at *
  omega

-- All sightings of a full walk, breadth first.
def trace (l : Lineage α) (start : α) : List (Sighting α) := l.walk start [] [start]

-- The members reached from `start`, itself first.
def reached (l : Lineage α) (start : α) : List α := (l.trace start).filterMap (·.member?)

-- The sightings of a walk that stops as soon as it comes to `goal`.
def traceUntil (l : Lineage α) (start goal : α) : List (Sighting α) :=
  (l.trace start).takeWhile (· ≠ .member goal)

-- One step up: `p` is in the parent list of `a`.
def IsParent (l : Lineage α) (a p : α) : Prop := p ∈ l.parents a

namespace Tour

-- A parent that has not been seen is seen from now on and waits at the end.
def notice (t : Tour α) (p : α) : Tour α :=
  if p ∈ t.seen then t else { t with seen := t.seen ++ [p], queue := t.queue ++ [p] }

-- One turn gives out the first who is waiting and goes through the parents. There is none when
-- nobody is waiting.
def turn? (l : Lineage α) (t : Tour α) : Option (Tour α) :=
  match t.queue with
  | [] => none
  | via :: queue =>
    some ((l.parents via).foldl notice { t with queue, given := t.given ++ [via] })

end Tour

end Lineage

namespace Roster

-- The roles that are named as a parent somewhere in the roster.
def mentioned (roster : Roster) : List RoleId := roster.roles.values.flatMap (·.role.parents)

theorem mem_mentioned {roster : Roster} {id p : RoleId} (h : p ∈ roster.parents id) :
    p ∈ roster.mentioned := by
  unfold parents at h
  cases hr : roster.roles.get? id with
  | none => simp [get?, hr] at h
  | some filed =>
    have hfiled : filed ∈ roster.roles.values := by
      obtain ⟨front, back, hentries, _⟩ := List.lookup_eq_some_iff.mp hr
      simp [Table.values, hentries]
    simp only [get?, hr] at h
    exact List.mem_flatMap.mpr ⟨filed, hfiled, h⟩

def lineage (roster : Roster) : Lineage RoleId :=
  ⟨roster.parents, roster.mentioned, mem_mentioned⟩

-- The known roles reached from a known role, without the role itself.
def ancestors (roster : Roster) (id : RoleId) : List RoleId :=
  if roster.contains id then
    (roster.lineage.reached id).filter fun a => a ≠ id ∧ roster.contains a
  else []

-- Every known role inherits from itself, and no role from one that is not known.
def inheritsFrom (roster : Roster) (id ancestor : RoleId) : Bool :=
  roster.contains id && roster.contains ancestor && (roster.lineage.reached id).contains ancestor

-- All tokens that hold for a role on a resource, its own before those of its ancestors, each
-- one once. Roles that are not known add nothing.
def resolve (roster : Roster) (id : RoleId) (resource : String) : List String :=
  ((roster.lineage.reached id).flatMap fun a => roster.directTokens a resource).eraseDups

-- The same for every resource that is configured on the way.
def resolveAll (roster : Roster) (id : RoleId) : Table String (List String) :=
  if roster.contains id then
    (roster.lineage.reached id).foldl
      (fun resolved a => resolved.absorb Role.addTokens (roster.permissions a)) .empty
  else .empty

end Roster

end RoleAccess
