import RoleAccess.Proofs.List.Corresponds
import RoleAccess.Proofs.Table.Absorb
import RoleAccess.Value.Identity
import Mathlib.Logic.Relation

namespace RoleAccess.Value

-- What lies directly inside a value.
def parts : Value → List Value
  | list items | tuple items | set items => items
  | map entries => entries.flatMap fun e => [e.1, e.2]
  | _ => []

-- A value occurs in itself and in all that it lies inside of, at any depth.
def Occurs (x v : Value) : Prop := Relation.ReflTransGen (fun v p => p ∈ v.parts) v x

theorem Occurs.self (v : Value) : Occurs v v := Relation.ReflTransGen.refl

theorem Occurs.of_part {x p v : Value} (hx : Occurs x p) (hp : p ∈ v.parts) : Occurs x v :=
  Relation.ReflTransGen.head hp hx

theorem Occurs.cases {x v : Value} (h : Occurs x v) : v = x ∨ ∃ p ∈ v.parts, Occurs x p :=
  Relation.ReflTransGen.cases_head h

theorem key_mem_parts {entries : List (Value × Value)} {e : Value × Value} (h : e ∈ entries) :
    e.1 ∈ (map entries).parts :=
  List.mem_flatMap.mpr ⟨e, h, List.mem_cons_self⟩

theorem value_mem_parts {entries : List (Value × Value)} {e : Value × Value} (h : e ∈ entries) :
    e.2 ∈ (map entries).parts :=
  List.mem_flatMap.mpr ⟨e, h, List.mem_cons_of_mem _ List.mem_cons_self⟩

theorem sizeOf_lt_of_mem_parts {p v : Value} (h : p ∈ v.parts) : sizeOf p < sizeOf v := by
  cases v with
  | list items | tuple items | set items =>
      have hlt : sizeOf p < sizeOf items := List.sizeOf_lt_of_mem h
      simp only [list.sizeOf_spec, tuple.sizeOf_spec, set.sizeOf_spec]
      omega
  | map entries =>
      obtain ⟨⟨key, value⟩, he, hp⟩ := List.mem_flatMap.mp h
      have hlt := List.sizeOf_lt_of_mem he
      simp only [Prod.mk.sizeOf_spec] at hlt
      simp only [List.mem_cons, List.not_mem_nil, or_false] at hp
      rcases hp with rfl | rfl <;> simp only [map.sizeOf_spec] <;> omega
  | _ => cases h

-- Values are built from their parts.
theorem parts_induction {P : Value → Prop} (h : ∀ v, (∀ p ∈ v.parts, P p) → P v) (v : Value) :
    P v :=
  h v fun p _ => parts_induction h p
termination_by sizeOf v
decreasing_by exact sizeOf_lt_of_mem_parts ‹_›

-- Entries are equal if both their keys and their values are.
def EntryBy (R : Value → Value → Prop) (e f : Value × Value) : Prop := R e.1 f.1 ∧ R e.2 f.2

-- What makes two values equal, by what they are, where `R` says which of their parts are. Numbers
-- are equal in magnitude, whatever they are written as, and a level goes by its name. The items of
-- sets and the entries of maps have their match in the other one.
inductive Matches (R : Value → Value → Prop) : Value → Value → Prop where
  | none : Matches R none none
  | bytes (bs : List UInt8) : Matches R (bytes bs) (bytes bs)
  | number {a b : Value} (m : Magnitude) (ha : a.magnitude? = some m)
    (hb : b.magnitude? = some m) : Matches R a b
  | text {a b : Value} (s : String) (ha : a.text? = some s) (hb : b.text? = some s) : Matches R a b
  | list {xs ys : List Value} (h : List.Forall₂ R xs ys) : Matches R (list xs) (list ys)
  | tuple {xs ys : List Value} (h : List.Forall₂ R xs ys) : Matches R (tuple xs) (tuple ys)
  | set {xs ys : List Value} (h : List.Corresponds R xs ys) : Matches R (set xs) (set ys)
  | map {es fs : List (Value × Value)} (h : List.Corresponds (EntryBy R) es fs) :
    Matches R (map es) (map fs)
  | role {r s : Role} (h : roleEqual r s = true) : Matches R (role r) (role s)

theorem equalItems_iff (xs ys : List Value) :
    equalItems xs ys = true ↔ List.Forall₂ (fun x y => x.equal y = true) xs ys := by
  induction xs generalizing ys with
  | nil => cases ys <;> simp [equalItems]
  | cons x xs ih => cases ys <;> simp [equalItems, ih]

theorem itemsWithin_iff (xs ys : List Value) :
    itemsWithin xs ys = true ↔ ∀ x ∈ xs, ∃ y ∈ ys, x.equal y = true := by
  induction xs with
  | nil => simp [itemsWithin]
  | cons x xs ih => simp [itemsWithin, ih]

theorem itemAmong_iff (xs : List Value) (y : Value) :
    itemAmong xs y = true ↔ ∃ x ∈ xs, x.equal y = true := by
  induction xs with
  | nil => simp [itemAmong]
  | cons x xs ih => simp [itemAmong, ih]

theorem entriesWithin_iff (es fs : List (Value × Value)) :
    entriesWithin es fs = true ↔
      ∀ e ∈ es, ∃ f ∈ fs, e.1.equal f.1 = true ∧ e.2.equal f.2 = true := by
  induction es with
  | nil => simp [entriesWithin]
  | cons e es ih => simp only [entriesWithin, ih, Bool.and_eq_true, List.any_eq_true,
      List.forall_mem_cons]

theorem entryAmong_iff (es : List (Value × Value)) (f : Value × Value) :
    entryAmong es f = true ↔ ∃ e ∈ es, e.1.equal f.1 = true ∧ e.2.equal f.2 = true := by
  induction es with
  | nil => simp [entryAmong]
  | cons e es ih => simp [entryAmong, ih]

theorem text?_eq_none_of_magnitude? {a : Value} {m : Magnitude} (h : a.magnitude? = some m) :
    a.text? = Option.none := by
  cases a with
  | bool | int | float => rfl
  | _ => cases h

theorem plainEqual_of_magnitude? {a b : Value} {m : Magnitude} (ha : a.magnitude? = some m)
    (hb : b.magnitude? = some m) : plainEqual a b = true := by
  unfold plainEqual
  split
  · rfl
  · cases ha
  · simp [ha, hb]

theorem plainEqual_of_text? {a b : Value} {s : String} (ha : a.text? = some s)
    (hb : b.text? = some s) : plainEqual a b = true := by
  have hnumber : a.magnitude? = Option.none := by
    cases a with
    | text | level => rfl
    | _ => cases ha
  unfold plainEqual
  split
  · rfl
  · cases ha
  · simp [hnumber, ha, hb]

theorem matches_of_plainEqual {R : Value → Value → Prop} {a b : Value}
    (h : plainEqual a b = true) : Matches R a b := by
  unfold plainEqual at h
  split at h
  · exact .none
  · rw [of_decide_eq_true h]
    exact .bytes _
  · split at h
    · rename_i x y ha hb
      exact .number y (of_decide_eq_true h ▸ ha) hb
    · split at h
      · rename_i x y ha hb
        exact .text y (of_decide_eq_true h ▸ ha) hb
      · cases h

theorem equal_iff (a b : Value) :
    a.equal b = true ↔ Matches (fun x y => x.equal y = true) a b := by
  constructor
  · intro h
    unfold equal at h
    split at h
    · exact .list ((equalItems_iff _ _).mp h)
    · exact .tuple ((equalItems_iff _ _).mp h)
    · simp only [Bool.and_eq_true, itemsWithin_iff, List.all_eq_true, itemAmong_iff] at h
      exact .set ⟨h.1, h.2⟩
    · simp only [Bool.and_eq_true, entriesWithin_iff, List.all_eq_true, entryAmong_iff] at h
      exact .map ⟨h.1, h.2⟩
    · exact .role h
    · exact matches_of_plainEqual h
  · intro h
    cases h with
    | none => rfl
    | bytes bs => simp [equal, plainEqual]
    | number m ha hb =>
        unfold equal
        split
        all_goals first | cases ha | exact plainEqual_of_magnitude? ha hb
    | text s ha hb =>
        unfold equal
        split
        all_goals first | cases ha | exact plainEqual_of_text? ha hb
    | list h | tuple h => rwa [equal, equalItems_iff]
    | set h =>
        simp only [equal, Bool.and_eq_true, itemsWithin_iff, List.all_eq_true, itemAmong_iff]
        exact ⟨h.left, h.right⟩
    | map h =>
        simp only [equal, Bool.and_eq_true, entriesWithin_iff, List.all_eq_true, entryAmong_iff]
        exact ⟨h.left, h.right⟩
    | role h => rwa [equal]

theorem roleEqual_symm {r s : Role} (h : roleEqual r s = true) : roleEqual s r = true := by
  simp only [roleEqual, decide_eq_true_eq] at h ⊢
  obtain ⟨hname, hdescription, hinherits, hrs, hsr⟩ := h
  exact ⟨hname.symm, hdescription.symm, hinherits.symm, hsr, hrs⟩

-- The permissions of one role are among those of another, and so are all that it has under a name.
theorem within_trans {t u w : Table String (List String)}
    (htu : ∀ e ∈ t.entries, u.get? e.1 = some e.2) (huw : ∀ e ∈ u.entries, w.get? e.1 = some e.2) :
    ∀ e ∈ t.entries, w.get? e.1 = some e.2 :=
  fun e he => huw e (Table.mem_entries_of_get? (htu e he))

theorem roleEqual_trans {r s t : Role} (hrs : roleEqual r s = true) (hst : roleEqual s t = true) :
    roleEqual r t = true := by
  simp only [roleEqual, decide_eq_true_eq] at hrs hst ⊢
  obtain ⟨hname, hdescription, hinherits, hup, hdown⟩ := hrs
  obtain ⟨hname', hdescription', hinherits', hup', hdown'⟩ := hst
  exact ⟨hname.trans hname', hdescription.trans hdescription', hinherits.trans hinherits',
    within_trans hup hup', within_trans hdown' hdown⟩

theorem roleEqual_self {r : Role} (h : r.WellFormed) : roleEqual r r = true := by
  have hself : ∀ e ∈ r.permissions.entries, r.permissions.get? e.1 = some e.2 :=
    fun _ he => h.resources.get?_of_mem he
  rw [roleEqual, decide_eq_true_eq]
  exact ⟨rfl, rfl, rfl, hself, hself⟩

namespace Matches

variable {R : Value → Value → Prop} {a b c : Value}

-- Equality is as symmetric and as transitive as it is of what lies inside.
theorem symm (h : Matches R a b) (hparts : ∀ p ∈ a.parts, ∀ q, R p q → R q p) : Matches R b a := by
  cases h with
  | none => exact .none
  | bytes bs => exact .bytes bs
  | number m ha hb => exact .number m hb ha
  | text s ha hb => exact .text s hb ha
  | list h => exact .list (List.forall₂_symm h hparts)
  | tuple h => exact .tuple (List.forall₂_symm h hparts)
  | set h => exact .set (h.symm hparts)
  | map h =>
      refine .map (h.symm fun e he f hef => ?_)
      exact ⟨hparts _ (key_mem_parts he) _ hef.1, hparts _ (value_mem_parts he) _ hef.2⟩
  | role h => exact .role (roleEqual_symm h)

theorem trans (hab : Matches R a b) (hbc : Matches R b c)
    (hparts : ∀ p ∈ a.parts, ∀ q r, R p q → R q r → R p r) : Matches R a c := by
  cases hab with
  | none => exact hbc
  | bytes bs => exact hbc
  | number m ha hb =>
      cases hbc with
      | number m' hb' hc => exact .number m' (by rwa [ha, ← hb]) hc
      | text s hb' hc =>
          rw [text?_eq_none_of_magnitude? hb] at hb'
          cases hb'
      | _ => cases hb
  | text s ha hb =>
      cases hbc with
      | text s' hb' hc => exact .text s' (by rwa [ha, ← hb]) hc
      | number m hb' hc =>
          rw [text?_eq_none_of_magnitude? hb'] at hb
          cases hb
      | _ => cases hb
  | list h =>
      cases hbc with
      | list h' => exact .list (List.forall₂_trans h h' hparts)
      | number _ hb _ | text _ hb _ => cases hb
  | tuple h =>
      cases hbc with
      | tuple h' => exact .tuple (List.forall₂_trans h h' hparts)
      | number _ hb _ | text _ hb _ => cases hb
  | set h =>
      cases hbc with
      | set h' => exact .set (h.trans h' hparts)
      | number _ hb _ | text _ hb _ => cases hb
  | map h =>
      cases hbc with
      | map h' =>
          refine .map (h.trans h' fun e he f g hef hfg => ?_)
          exact ⟨hparts _ (key_mem_parts he) _ _ hef.1 hfg.1,
            hparts _ (value_mem_parts he) _ _ hef.2 hfg.2⟩
      | number _ hb _ | text _ hb _ => cases hb
  | role h =>
      cases hbc with
      | role h' => exact .role (roleEqual_trans h h')
      | number _ hb _ | text _ hb _ => cases hb

-- Whatever lies inside a value has its like inside an equal one.
theorem exists_of_mem_parts (h : Matches R a b) {p : Value} (hp : p ∈ a.parts) : ∃ q, R p q := by
  cases h with
  | list h | tuple h =>
      obtain ⟨q, _, hpq⟩ := (List.Corresponds.of_forall₂ h).left p hp
      exact ⟨q, hpq⟩
  | set h =>
      obtain ⟨q, _, hpq⟩ := h.left p hp
      exact ⟨q, hpq⟩
  | map h =>
      obtain ⟨e, he, hp⟩ := List.mem_flatMap.mp hp
      obtain ⟨f, _, hkey, hvalue⟩ := h.left e he
      simp only [List.mem_cons, List.not_mem_nil, or_false] at hp
      rcases hp with rfl | rfl
      · exact ⟨f.1, hkey⟩
      · exact ⟨f.2, hvalue⟩
  | none | bytes | role => cases hp
  | number _ ha _ =>
      cases a with
      | bool | int | float => cases hp
      | _ => cases ha
  | text _ ha _ =>
      cases a with
      | text | level => cases hp
      | _ => cases ha

end Matches

theorem equal_symm {a b : Value} (h : a.equal b = true) : b.equal a = true := by
  induction a using parts_induction generalizing b with
  | h a ih => exact (equal_iff b a).mpr (((equal_iff a b).mp h).symm fun p hp q => ih p hp)

theorem equal_trans {a b c : Value} (hab : a.equal b = true) (hbc : b.equal c = true) :
    a.equal c = true := by
  induction a using parts_induction generalizing b c with
  | h a ih =>
      have hmatches := ((equal_iff a b).mp hab).trans ((equal_iff b c).mp hbc)
      exact (equal_iff a c).mpr (hmatches fun p hp q r => ih p hp)

-- No undefined number occurs in the value.
def NaNFree (v : Value) : Prop := ∀ x : Binary64, x.isNaN = true → ¬ Occurs (float x) v

theorem NaNFree.of_part {v p : Value} (h : v.NaNFree) (hp : p ∈ v.parts) : p.NaNFree :=
  fun x hx hoccurs => h x hx (hoccurs.of_part hp)

theorem magnitude?_eq_none_iff (x : Binary64) :
    (float x).magnitude? = Option.none ↔ x.isNaN = true := by
  have hfloat : (float x).magnitude? = x.magnitude? := rfl
  rw [hfloat, Binary64.magnitude?]
  cases x.isNaN <;> cases x.isInfinite <;> simp

-- An undefined number has no equal, and neither has anything that it occurs in.
theorem nanFree_of_equal {a b : Value} (h : a.equal b = true) : a.NaNFree := by
  induction a using parts_induction generalizing b with
  | h a ih =>
      have hmatches := (equal_iff a b).mp h
      intro x hx hoccurs
      rcases hoccurs.cases with rfl | ⟨p, hp, hrest⟩
      · cases hmatches with
        | number m ha _ =>
            rw [(magnitude?_eq_none_iff x).mpr hx] at ha
            cases ha
        | text s ha _ => cases ha
      · obtain ⟨q, hpq⟩ := hmatches.exists_of_mem_parts hp
        exact ih p hp hpq x hx hrest

-- The roles inside a value are such as may be held.
def HoldsRoles (v : Value) : Prop := ∀ r : Role, Occurs (role r) v → r.WellFormed

theorem HoldsRoles.of_part {v p : Value} (h : v.HoldsRoles) (hp : p ∈ v.parts) : p.HoldsRoles :=
  fun r hoccurs => h r (hoccurs.of_part hp)

theorem Matches.self {R : Value → Value → Prop} {v : Value} (hnan : v.NaNFree)
    (hroles : v.HoldsRoles) (hparts : ∀ p ∈ v.parts, R p p) : Matches R v v := by
  cases v with
  | none => exact .none
  | bool b | int n => exact .number _ rfl rfl
  | float x =>
      have hx : (float x).magnitude? ≠ Option.none := fun hnone =>
        hnan x ((magnitude?_eq_none_iff x).mp hnone) (.self _)
      obtain ⟨m, hm⟩ := Option.ne_none_iff_exists'.mp hx
      exact .number m hm hm
  | text s | level l => exact .text _ rfl rfl
  | bytes bs => exact .bytes bs
  | list items => exact .list (List.forall₂_same.mpr hparts)
  | tuple items => exact .tuple (List.forall₂_same.mpr hparts)
  | set items => exact .set (.refl hparts)
  | map entries =>
      refine .map (.refl fun e he => ?_)
      exact ⟨hparts _ (key_mem_parts he), hparts _ (value_mem_parts he)⟩
  | role r => exact .role (roleEqual_self (hroles r (.self _)))

theorem equal_self_iff {v : Value} (hroles : v.HoldsRoles) : v.equal v = true ↔ v.NaNFree := by
  refine ⟨nanFree_of_equal, fun hnan => ?_⟩
  induction v using parts_induction with
  | h v ih =>
      refine (equal_iff v v).mpr (.self hnan hroles fun p hp => ?_)
      exact ih p hp (hroles.of_part hp) (hnan.of_part hp)

-- Two that are equal to the same one are equal.
theorem equal_of_common {a b c : Value} (hac : a.equal c = true) (hbc : b.equal c = true) :
    a.equal b = true :=
  equal_trans hac (equal_symm hbc)

theorem equal_set_iff_corresponds (xs ys : List Value) :
    (set xs).equal (set ys) = true ↔ List.Corresponds (fun x y => x.equal y = true) xs ys := by
  rw [equal_iff]
  refine ⟨fun h => ?_, .set⟩
  cases h with
  | set h => exact h
  | number _ hb _ | text _ hb _ => cases hb

theorem equal_map_iff_corresponds (es fs : List (Value × Value)) :
    (map es).equal (map fs) = true ↔
      List.Corresponds (EntryBy fun x y => x.equal y = true) es fs := by
  rw [equal_iff]
  refine ⟨fun h => ?_, .map⟩
  cases h with
  | map h => exact h
  | number _ hb _ | text _ hb _ => cases hb

-- No two of the values are equal.
def Unequal (vs : List Value) : Prop := vs.Pairwise fun v w => v.equal w = false

-- Sets are equal if they are of one size and one has all that the other has.
theorem equal_set_iff {xs ys : List Value} (hxs : Unequal xs) (hys : Unequal ys) :
    (set xs).equal (set ys) = true ↔
      xs.length = ys.length ∧ ∀ x ∈ xs, ∃ y ∈ ys, x.equal y = true := by
  rw [equal_set_iff_corresponds]
  refine List.Corresponds.iff_length_eq (hxs.imp ?_) (hys.imp ?_)
  · intro x x' hne y hxy hxy'
    rw [equal_of_common hxy hxy'] at hne
    cases hne
  · intro y y' hne x hxy hxy'
    rw [equal_trans (equal_symm hxy) hxy'] at hne
    cases hne

-- Maps are equal if they are of one size and one has, under each key of the other, an equal value.
theorem equal_map_iff {es fs : List (Value × Value)} (hes : Unequal (es.map (·.1)))
    (hfs : Unequal (fs.map (·.1))) :
    (map es).equal (map fs) = true ↔
      es.length = fs.length ∧ ∀ e ∈ es, ∃ f ∈ fs, e.1.equal f.1 = true ∧ e.2.equal f.2 = true := by
  rw [equal_map_iff_corresponds]
  refine List.Corresponds.iff_length_eq ((List.pairwise_map.mp hes).imp ?_)
    ((List.pairwise_map.mp hfs).imp ?_)
  · intro e e' hne f hef hef'
    rw [equal_of_common hef.1 hef'.1] at hne
    cases hne
  · intro f f' hne e hef hef'
    rw [equal_trans (equal_symm hef.1) hef'.1] at hne
    cases hne

end RoleAccess.Value
