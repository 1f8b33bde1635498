import RoleAccess.Proofs.List.Distinct
import RoleAccess.Proofs.Table.Absorb

namespace RoleAccess.Table

variable {κ α β : Type} [DecidableEq κ]

-- Without repeated keys a table is known from its keys and from what it holds under them.
theorem eq_of_get? {t u : Table κ α} (ht : t.Distinct) (hkeys : t.keys = u.keys)
    (hget : ∀ k, t.get? k = u.get? k) : t = u := by
  obtain ⟨es⟩ := t
  obtain ⟨ds⟩ := u
  induction es generalizing ds with
  | nil =>
      have hds : ds = [] := List.map_eq_nil_iff.mp hkeys.symm
      rw [hds]
  | cons e es ih =>
      obtain ⟨j, v⟩ := e
      obtain ⟨d, ds, rfl, rfl, hrest⟩ := List.map_eq_cons_iff.mp hkeys.symm
      obtain ⟨i, w⟩ := d
      obtain ⟨hnew, hes⟩ := List.nodup_cons.mp ht
      have hhead : v = w := by simpa [get?_cons] using hget i
      have htail : ∀ k, (⟨es⟩ : Table κ α).get? k = (⟨ds⟩ : Table κ α).get? k := by
        intro k
        by_cases hk : k = i
        -- The first key comes in neither of the two tails.
        · have hleft := (get?_eq_none_iff ⟨es⟩ i).mpr hnew
          rw [← hrest] at hnew
          have hright := (get?_eq_none_iff ⟨ds⟩ i).mpr hnew
          rw [hk, hleft, hright]
        · simpa [get?_cons, hk] using hget k
      have hrests := ih hes ds hrest.symm htail
      rw [mk.injEq] at hrests
      rw [hhead, hrests]

-- The table with each value made anew from its key and the value held so far.
def mapEntries (f : κ → α → β) (t : Table κ α) : Table κ β :=
  ⟨t.entries.map fun e => (e.1, f e.1 e.2)⟩

omit [DecidableEq κ] in
theorem keys_mapEntries (f : κ → α → β) (t : Table κ α) : (t.mapEntries f).keys = t.keys := by
  simp [keys, mapEntries]

theorem get?_mapEntries (f : κ → α → β) (t : Table κ α) (k : κ) :
    (t.mapEntries f).get? k = (t.get? k).map (f k) := by
  obtain ⟨es⟩ := t
  induction es with
  | nil => rfl
  | cons e es ih =>
      obtain ⟨j, v⟩ := e
      have hcons : (⟨(j, v) :: es⟩ : Table κ α).mapEntries f =
          ⟨(j, f j v) :: ((⟨es⟩ : Table κ α).mapEntries f).entries⟩ := rfl
      rw [hcons, get?_cons, get?_cons, ih]
      by_cases hk : k = j <;> simp [hk]

theorem contains_eq_decide (t : Table κ α) (k : κ) : t.contains k = decide (k ∈ t.keys) := by
  rw [Bool.eq_iff_iff, contains_iff, decide_eq_true_eq]

theorem contains_absorb (f : Option α → β → α) (t : Table κ α) {u : Table κ β}
    (hu : u.Distinct) (k : κ) :
    (t.absorb f u).contains k = (t.contains k || u.contains k) := by
  simp only [contains, get?_absorb f t hu]
  cases u.get? k <;> simp

-- The keys held so far come first, then those that come in, each one where it comes first.
theorem keys_absorb_of_distinct (f : Option α → β → α) {t : Table κ α} (ht : t.Distinct)
    (u : Table κ β) : (t.absorb f u).keys = (t.keys ++ u.keys).eraseDups := by
  obtain ⟨es⟩ := u
  unfold absorb
  induction es generalizing t with
  | nil =>
      have hkeys : t.keys.eraseDups = t.keys := List.eraseDups_of_nodup ht
      simpa [keys] using hkeys.symm
  | cons e es ih =>
      have hstep : (t.alter e.1 fun held => f held e.2).keys = (t.keys ++ [e.1]).eraseDups := by
        rw [keys_alter, List.eraseDups_append_of_nodup ht (List.nodup_singleton e.1)]
        by_cases he : e.1 ∈ t.keys <;> simp [he]
      have hkeys : (⟨e :: es⟩ : Table κ β).keys = [e.1] ++ (⟨es⟩ : Table κ β).keys := rfl
      rw [List.foldl_cons, ih (ht.alter _ _), hstep, List.eraseDups_append_left, hkeys,
        List.append_assoc]

theorem absorb_append (f : Option α → β → α) (t : Table κ α) (es ds : List (κ × β)) :
    t.absorb f ⟨es ++ ds⟩ = (t.absorb f ⟨es⟩).absorb f ⟨ds⟩ :=
  List.foldl_append

theorem get?_absorb_of_not_mem (f : Option α → β → α) (t : Table κ α) {u : Table κ β} {k : κ}
    (h : k ∉ u.keys) : (t.absorb f u).get? k = t.get? k := by
  obtain ⟨es⟩ := u
  unfold absorb
  induction es generalizing t with
  | nil => rfl
  | cons e es ih =>
      obtain ⟨he, hes⟩ := not_or.mp (mt List.mem_cons.mpr h)
      rw [List.foldl_cons, ih _ hes, get?_alter, if_neg he]

-- Where a key comes in more than once, its last value is the one that is put on top.
theorem get?_absorb_last (f : Option α → β → α) (t : Table κ α) (front : List (κ × β)) (k : κ)
    (b : β) {back : List (κ × β)} (h : k ∉ back.map (·.1)) :
    ∃ held, (t.absorb f ⟨front ++ (k, b) :: back⟩).get? k = some (f held b) := by
  refine ⟨(t.absorb f ⟨front⟩).get? k, ?_⟩
  have hcons : (t.absorb f ⟨front⟩).absorb f ⟨(k, b) :: back⟩ =
      ((t.absorb f ⟨front⟩).alter k fun held => f held b).absorb f ⟨back⟩ := rfl
  rw [absorb_append, hcons, get?_absorb_of_not_mem f _ h, get?_alter, if_pos rfl]

variable {f : Option α → α → α} {t u v : Table κ α}

-- What is absorbed may be put together first. Keys line up by themselves, and for the values it
-- is enough to look at one key at a time.
theorem absorb_assoc (ht : t.Distinct) (hu : u.Distinct) (hv : v.Distinct)
    (hboth : ∀ k a b, u.get? k = some a → v.get? k = some b →
      f (some (f (t.get? k) a)) b = f (t.get? k) (f (some a) b))
    (hlast : ∀ k b, v.get? k = some b → f (t.get? k) (f none b) = f (t.get? k) b) :
    (t.absorb f u).absorb f v = t.absorb f (u.absorb f v) := by
  have huv := hu.absorb f v
  refine eq_of_get? ((ht.absorb f u).absorb f v) ?_ ?_
  · have hnew : v.keys.filter (fun k => !(t.absorb f u).contains k) =
        (v.keys.filter fun k => !u.contains k).filter fun k => !t.contains k := by
      rw [List.filter_filter]
      apply List.filter_congr
      intro k _
      rw [contains_absorb f t hu, Bool.not_or]
    rw [keys_absorb f _ hv, keys_absorb f _ hu, keys_absorb f _ huv, keys_absorb f _ hv,
      List.filter_append, hnew, List.append_assoc]
  · intro k
    rw [get?_absorb f _ hv, get?_absorb f _ hu, get?_absorb f _ huv, get?_absorb f _ hv]
    cases hvk : v.get? k with
    | none => rfl
    | some b =>
        cases huk : u.get? k with
        | none => simp [hlast k b hvk]
        | some a => simp [hboth k a b huk hvk]

-- The same table absorbed once more brings no key, so it changes nothing if no value changes.
theorem absorb_self (ht : t.Distinct) (hu : u.Distinct)
    (hagain : ∀ k a, u.get? k = some a → f (some (f (t.get? k) a)) a = f (t.get? k) a) :
    (t.absorb f u).absorb f u = t.absorb f u := by
  refine eq_of_get? ((ht.absorb f u).absorb f u) ?_ ?_
  · have hnone : u.keys.filter (fun k => !(t.absorb f u).contains k) = [] := by
      rw [List.filter_eq_nil_iff]
      intro k hk
      rw [contains_absorb f t hu, (contains_iff u k).mpr hk, Bool.or_true]
      exact Bool.false_ne_true
    rw [keys_absorb f _ hu, hnone, List.append_nil]
  · intro k
    rw [get?_absorb f _ hu, get?_absorb f _ hu]
    cases huk : u.get? k with
    | none => rfl
    | some a => simp [hagain k a huk]

theorem empty_absorb (hu : u.Distinct) (hfirst : ∀ e ∈ u.entries, f none e.2 = e.2) :
    empty.absorb f u = u := by
  have hentries : u.entries.map (fun e => (e.1, f none e.2)) = u.entries := by
    refine (List.map_congr_left fun e he => ?_).trans (List.map_id' u.entries)
    rw [hfirst e he]
  rw [absorb_of_disjoint f empty hu (by simp [empty, keys]), hentries]
  rfl

end RoleAccess.Table
