import RoleAccess.Table
import Mathlib.Data.List.Nodup

namespace RoleAccess.Table

variable {κ α β : Type} [DecidableEq κ]

omit [DecidableEq κ] in
theorem distinct_empty : (empty : Table κ α).Distinct := List.nodup_nil

theorem mem_entries_of_get? {t : Table κ α} {k : κ} {v : α} (h : t.get? k = some v) :
    (k, v) ∈ t.entries := by
  obtain ⟨es⟩ := t
  induction es with
  | nil => simp [get?] at h
  | cons e es ih =>
      obtain ⟨j, w⟩ := e
      rw [get?_cons] at h
      by_cases hk : k = j
      · rw [if_pos hk, Option.some_inj] at h
        simp [hk, h]
      · rw [if_neg hk] at h
        exact List.mem_cons_of_mem _ (ih h)

theorem Distinct.get?_of_mem {t : Table κ α} (h : t.Distinct) {e : κ × α}
    (he : e ∈ t.entries) : t.get? e.1 = some e.2 := by
  obtain ⟨es⟩ := t
  simp only [Distinct, keys] at h he
  induction es with
  | nil => exact False.elim (List.not_mem_nil he)
  | cons d es ih =>
      obtain ⟨hhead, hrest⟩ := List.nodup_cons.mp h
      rw [get?_cons]
      rcases List.mem_cons.mp he with rfl | hmem
      · rw [if_pos rfl]
      · have hne : e.1 ≠ d.1 := fun hsame => hhead (List.mem_map.mpr ⟨e, hmem, hsame⟩)
        rw [if_neg hne]
        exact ih hrest hmem

theorem get?_eq_none_iff (t : Table κ α) (k : κ) : t.get? k = none ↔ k ∉ t.keys := by
  rw [← contains_iff, contains, Bool.not_eq_true, Option.isSome_eq_false_iff,
    Option.isNone_iff_eq_none]

theorem mem_entries_alter {t : Table κ α} {k : κ} {f : Option α → α} {e : κ × α}
    (h : e ∈ (t.alter k f).entries) : e ∈ t.entries ∨ e = (k, f (t.get? k)) := by
  obtain ⟨es⟩ := t
  simp only [alter] at h ⊢
  induction es with
  | nil => exact .inr (by simpa [alterEntries, get?] using h)
  | cons d es ih =>
      obtain ⟨j, w⟩ := d
      rw [get?_cons]
      by_cases hj : j = k
      · simp only [alterEntries, hj, if_true, List.mem_cons] at h ⊢
        exact h.elim .inr (fun hmem => .inl (.inr hmem))
      · rw [if_neg (Ne.symm hj)]
        simp only [alterEntries, hj, if_false, List.mem_cons] at h ⊢
        rcases h with rfl | hmem
        · exact .inl (.inl rfl)
        · exact (ih hmem).imp_left .inr

theorem alter_congr {t : Table κ α} {k : κ} {f g : Option α → α}
    (h : f (t.get? k) = g (t.get? k)) : t.alter k f = t.alter k g := by
  obtain ⟨es⟩ := t
  simp only [alter, mk.injEq]
  induction es with
  | nil => simpa [alterEntries, get?] using h
  | cons e es ih =>
      obtain ⟨j, v⟩ := e
      rw [get?_cons] at h
      by_cases hj : j = k
      · rw [if_pos hj.symm] at h
        simp only [alterEntries, hj, if_true, h]
      · rw [if_neg (Ne.symm hj)] at h
        simp only [alterEntries, hj, if_false, ih h]

theorem forall_entries_absorb {P : κ → α → Prop} {f : Option α → β → α} {t : Table κ α}
    {u : Table κ β} (ht : ∀ e ∈ t.entries, P e.1 e.2)
    (hf : ∀ e ∈ u.entries, ∀ held : Option α, (∀ v ∈ held, P e.1 v) → P e.1 (f held e.2)) :
    ∀ e ∈ (t.absorb f u).entries, P e.1 e.2 := by
  obtain ⟨es⟩ := u
  unfold absorb
  induction es generalizing t with
  | nil => exact ht
  | cons d es ih =>
      apply ih
      · intro e he
        rcases mem_entries_alter he with hold | rfl
        · exact ht e hold
        · exact hf d List.mem_cons_self _ fun v hv => ht _ (mem_entries_of_get? hv)
      · intro e he
        exact hf e (List.mem_cons_of_mem _ he)

-- Two ways to make values agree on a table if they do on values of the kind that it holds.
theorem absorb_congr {P : κ → α → Prop} {f g : Option α → β → α} {t : Table κ α}
    {u : Table κ β} (ht : ∀ e ∈ t.entries, P e.1 e.2)
    (hg : ∀ e ∈ u.entries, ∀ held : Option α, (∀ v ∈ held, P e.1 v) → P e.1 (g held e.2))
    (hfg : ∀ e ∈ u.entries, ∀ held : Option α, (∀ v ∈ held, P e.1 v) →
      f held e.2 = g held e.2) : t.absorb f u = t.absorb g u := by
  obtain ⟨es⟩ := u
  unfold absorb
  induction es generalizing t with
  | nil => rfl
  | cons d es ih =>
      have hheld : ∀ v ∈ t.get? d.1, P d.1 v := fun v hv => ht _ (mem_entries_of_get? hv)
      have hstep : t.alter d.1 (fun held => f held d.2) = t.alter d.1 (fun held => g held d.2) :=
        alter_congr (hfg d List.mem_cons_self (t.get? d.1) hheld)
      rw [List.foldl_cons, List.foldl_cons, hstep]
      apply ih
      · intro e he
        rcases mem_entries_alter he with hold | rfl
        · exact ht e hold
        · exact hg d List.mem_cons_self _ hheld
      · exact fun e he => hg e (List.mem_cons_of_mem _ he)
      · exact fun e he => hfg e (List.mem_cons_of_mem _ he)

-- Each key that comes in is met once, so its value is made from the one held at the start.
theorem get?_absorb (f : Option α → β → α) (t : Table κ α) {u : Table κ β} (hu : u.Distinct)
    (k : κ) :
    (t.absorb f u).get? k = (u.get? k).elim (t.get? k) fun v => some (f (t.get? k) v) := by
  obtain ⟨es⟩ := u
  unfold absorb
  induction es generalizing t with
  | nil => rfl
  | cons e es ih =>
      obtain ⟨j, v⟩ := e
      obtain ⟨hj, hes⟩ := List.nodup_cons.mp hu
      rw [List.foldl_cons, ih _ hes, get?_cons, get?_alter]
      by_cases hk : k = j
      · have hnone : (⟨es⟩ : Table κ β).get? k = none := by
          rw [get?_eq_none_iff, hk]
          exact hj
        simp [hk, hk ▸ hnone]
      · simp [hk]

theorem contains_alter_of_ne (t : Table κ α) {k j : κ} (h : j ≠ k) (f : Option α → α) :
    (t.alter k f).contains j = t.contains j := by
  rw [contains, contains, get?_alter, if_neg h]

-- What is told of an entry by `g` and stays the same when its value changes.
theorem map_entries_alter {γ : Type} {g : κ × α → γ} {k : κ} {f : Option α → α}
    (hkept : ∀ a, g (k, f (some a)) = g (k, a)) (t : Table κ α) :
    (t.alter k f).entries.map g =
      if k ∈ t.keys then t.entries.map g else t.entries.map g ++ [g (k, f none)] := by
  obtain ⟨es⟩ := t
  simp only [keys, alter]
  induction es with
  | nil => simp [alterEntries]
  | cons e es ih =>
      obtain ⟨j, v⟩ := e
      by_cases hj : j = k
      · subst hj
        simp [alterEntries, hkept v]
      · simp only [alterEntries, if_neg hj, List.map_cons, ih, List.mem_cons, Ne.symm hj, false_or]
        by_cases hes : k ∈ es.map (·.1) <;> simp [hes]

theorem map_entries_absorb {γ : Type} {g : κ × α → γ} {f : Option α → β → α}
    (hkept : ∀ k a b, g (k, f (some a) b) = g (k, a)) (t : Table κ α) {u : Table κ β}
    (hu : u.Distinct) :
    (t.absorb f u).entries.map g =
      t.entries.map g ++
        (u.entries.filter fun e => !t.contains e.1).map fun e => g (e.1, f none e.2) := by
  obtain ⟨es⟩ := u
  unfold absorb
  induction es generalizing t with
  | nil => simp
  | cons e es ih =>
      obtain ⟨hnew, hes⟩ := List.nodup_cons.mp hu
      have hrest : es.filter (fun d => !(t.alter e.1 fun held => f held e.2).contains d.1) =
          es.filter fun d => !t.contains d.1 := by
        apply List.filter_congr
        intro d hd
        have hde : d.1 ≠ e.1 := fun heq => hnew (List.mem_map.mpr ⟨d, hd, heq⟩)
        rw [contains_alter_of_ne t hde]
      rw [List.foldl_cons, ih _ hes, map_entries_alter (hkept e.1 · e.2), hrest, List.filter_cons]
      by_cases he : e.1 ∈ t.keys
      · simp [he, (contains_iff t e.1).mpr he]
      · have hcontains : t.contains e.1 = false :=
          Bool.eq_false_iff.mpr (mt (contains_iff t e.1).mp he)
        simp [he, hcontains]

theorem keys_absorb (f : Option α → β → α) (t : Table κ α) {u : Table κ β} (hu : u.Distinct) :
    (t.absorb f u).keys = t.keys ++ u.keys.filter fun k => !t.contains k := by
  have hkeys := map_entries_absorb (g := fun e => e.1) (f := f) (fun _ _ _ => rfl) t hu
  unfold keys
  rw [hkeys, List.filter_map]
  rfl

theorem alter_of_not_mem {t : Table κ α} {k : κ} (h : k ∉ t.keys) (f : Option α → α) :
    t.alter k f = ⟨t.entries ++ [(k, f none)]⟩ := by
  obtain ⟨es⟩ := t
  simp only [alter, mk.injEq]
  induction es with
  | nil => rfl
  | cons e es ih =>
      obtain ⟨j, v⟩ := e
      simp only [keys, List.map_cons, List.mem_cons, not_or] at h
      have hes : k ∉ (⟨es⟩ : Table κ α).keys := h.2
      simp only [alterEntries, if_neg (Ne.symm h.1), ih hes, List.cons_append]

-- New keys go to the end, in the order in which they come.
theorem absorb_of_disjoint (f : Option α → β → α) (t : Table κ α) {u : Table κ β}
    (hu : u.Distinct) (hdisjoint : ∀ k ∈ u.keys, k ∉ t.keys) :
    t.absorb f u = ⟨t.entries ++ u.entries.map fun e => (e.1, f none e.2)⟩ := by
  obtain ⟨es⟩ := u
  unfold absorb
  induction es generalizing t with
  | nil => simp
  | cons e es ih =>
      obtain ⟨hnew, hes⟩ := List.nodup_cons.mp hu
      have hhead : e.1 ∉ t.keys := hdisjoint e.1 List.mem_cons_self
      have halter := alter_of_not_mem hhead fun held => f held e.2
      have htail : ∀ k ∈ es.map (·.1), k ∉ (t.alter e.1 fun held => f held e.2).keys := by
        intro k hk
        rw [keys_alter, if_neg hhead, List.mem_append, List.mem_singleton, not_or]
        refine ⟨hdisjoint k (List.mem_cons_of_mem _ hk), ?_⟩
        rintro rfl
        exact hnew hk
      rw [List.foldl_cons, ih _ hes htail, halter]
      simp

theorem ofList_of_distinct {t : Table κ α} (h : t.Distinct) : ofList t.entries = t := by
  unfold ofList
  rw [absorb_of_disjoint _ _ h (by simp [empty, keys])]
  simp [empty]

end RoleAccess.Table
