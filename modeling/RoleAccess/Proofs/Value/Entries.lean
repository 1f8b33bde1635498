import RoleAccess.Proofs.Number.Written
import RoleAccess.Proofs.Value.Equality
import RoleAccess.Value.Json

namespace RoleAccess.Value

theorem text?_eq_of_equal {a b : Value} (h : a.equal b = true) : a.text? = b.text? := by
  cases (equal_iff a b).mp h with
  | number m ha hb => rw [text?_eq_none_of_magnitude? ha, text?_eq_none_of_magnitude? hb]
  | text s ha hb => rw [ha, hb]
  | none | bytes | list | tuple | set | map | role => rfl

theorem equal_of_text? {a b : Value} {s : String} (ha : a.text? = some s) (hb : b.text? = some s) :
    a.equal b = true :=
  (equal_iff a b).mpr (.text s ha hb)

section Under

variable {α β : Type}

-- All that stands under a name.
def under (entries : List (Value × α)) (name : String) : List α :=
  (entries.filter fun e => e.1.text? = some name).map (·.2)

theorem field?_eq_head? (entries : List (Value × α)) (name : String) :
    field? entries name = (under entries name).head? := by
  rw [field?, under, List.head?_map, List.head?_filter]

theorem under_append (es fs : List (Value × α)) (name : String) :
    under (es ++ fs) name = under es name ++ under fs name := by
  rw [under, List.filter_append, List.map_append]
  rfl

theorem under_cons_of_eq {e : Value × α} {name : String} (h : e.1.text? = some name)
    (es : List (Value × α)) : under (e :: es) name = e.2 :: under es name := by
  rw [under, List.filter_cons_of_pos (by simpa using h), List.map_cons]
  rfl

theorem under_cons_of_ne {e : Value × α} {name : String} (h : e.1.text? ≠ some name)
    (es : List (Value × α)) : under (e :: es) name = under es name := by
  rw [under, List.filter_cons_of_neg (by simpa using h)]
  rfl

theorem under_map (f : α → β) (es : List (Value × α)) (name : String) :
    under (es.map fun e => (e.1, f e.2)) name = (under es name).map f := by
  simp only [under, List.filter_map, List.map_map, Function.comp_def]

theorem under_filter {p : Value × α → Bool} {name : String}
    (h : ∀ e : Value × α, e.1.text? = some name → p e = true) (es : List (Value × α)) :
    under (es.filter p) name = under es name := by
  rw [under, List.filter_filter, under]
  refine congrArg _ (List.filter_congr fun e _ => ?_)
  by_cases he : e.1.text? = some name <;> simp [he, h]

theorem under_eq_nil_iff {es : List (Value × α)} {name : String} :
    under es name = [] ↔ ∀ e ∈ es, e.1.text? ≠ some name := by
  simp [under]

-- Texts that are there or not, each one under a name of its own.
theorem under_filterMap_texts (f : String → Option String) {names : List String}
    (h : names.Nodup) (name : String) :
    under (names.filterMap fun n => (f n).map fun s => (text n, text s)) name =
      if name ∈ names then ((f name).map text).toList else [] := by
  induction names with
  | nil => rfl
  | cons n names ih =>
      obtain ⟨hn, hnames⟩ := List.nodup_cons.mp h
      by_cases hname : name = n
      · subst hname
        rw [if_neg hn] at ih
        rw [if_pos List.mem_cons_self]
        cases hf : f name with
        | none =>
            rw [List.filterMap_cons_none (by rw [hf]; rfl), ih hnames]
            rfl
        | some s =>
            rw [List.filterMap_cons_some (by rw [hf]; rfl), under_cons_of_eq rfl, ih hnames]
            rfl
      · have hmem : name ∈ n :: names ↔ name ∈ names := by simp [hname]
        simp only [hmem, ← ih hnames]
        cases hf : f n with
        | none => rw [List.filterMap_cons_none (by rw [hf]; rfl)]
        | some s =>
            rw [List.filterMap_cons_some (by rw [hf]; rfl), under_cons_of_ne]
            exact fun heq => hname (Option.some_inj.mp heq).symm

-- Keys of which no two are equal do not have a name in common.
theorem length_under_le_one {es : List (Value × α)} (h : Unequal (es.map (·.1)))
    (name : String) : (under es name).length ≤ 1 := by
  induction es with
  | nil => exact Nat.zero_le 1
  | cons e es ih =>
      obtain ⟨he, hes⟩ := List.pairwise_cons.mp h
      by_cases hname : e.1.text? = some name
      · have hrest : under es name = [] := by
          refine under_eq_nil_iff.mpr fun f hf hother => ?_
          have hne := he f.1 (List.mem_map_of_mem hf)
          rw [equal_of_text? hname hother] at hne
          cases hne
        rw [under_cons_of_eq hname, hrest]
        exact Nat.le_refl 1
      · rw [under_cons_of_ne hname]
        exact ih hes

theorem under_eq_toList_field? {es : List (Value × α)} (h : Unequal (es.map (·.1)))
    (name : String) : under es name = (field? es name).toList := by
  have hlength := length_under_le_one h name
  rw [field?_eq_head?]
  cases hunder : under es name with
  | nil => rfl
  | cons v rest =>
      rw [hunder, List.length_cons] at hlength
      have hrest : rest = [] := List.length_eq_zero_iff.mp (by omega)
      rw [hrest]
      rfl

-- An entry takes the place of the first one under its name.
theorem under_insertEntry (k : Value) (v : α) (es : List (Value × α)) (name : String) :
    under (insertEntry k v es) name =
      if k.text? = some name then v :: (under es name).tail else under es name := by
  induction es with
  | nil =>
      by_cases hk : k.text? = some name <;> simp [insertEntry, under, hk]
  | cons e es ih =>
      obtain ⟨j, w⟩ := e
      rw [insertEntry]
      by_cases hequal : j.equal k = true
      · rw [if_pos hequal, ← text?_eq_of_equal hequal]
        by_cases hj : j.text? = some name
        · rw [if_pos hj, under_cons_of_eq hj, under_cons_of_eq hj, List.tail_cons]
        · rw [if_neg hj, under_cons_of_ne hj, under_cons_of_ne hj]
      · rw [if_neg hequal]
        by_cases hj : j.text? = some name
        · have hk : k.text? ≠ some name := fun hk => hequal (equal_of_text? hj hk)
          rw [under_cons_of_eq hj, under_cons_of_eq hj, ih, if_neg hk, if_neg hk]
        · rw [under_cons_of_ne hj, under_cons_of_ne hj, ih]

-- Entries that come in one after the other replace what stands under their names, and leave what
-- stands under others.
theorem under_foldl_insertEntry {es fs : List (Value × α)} {name : String}
    (hes : (under es name).length ≤ 1) (hfs : (under fs name).length ≤ 1) :
    under (fs.foldl (fun es f => insertEntry f.1 f.2 es) es) name =
      if under fs name = [] then under es name else under fs name := by
  induction fs generalizing es with
  | nil => rfl
  | cons f fs ih =>
      have hinsert := under_insertEntry f.1 f.2 es name
      rw [List.foldl_cons]
      by_cases hf : f.1.text? = some name
      · rw [under_cons_of_eq hf] at hfs
        have hrest : under fs name = [] := by
          rw [← List.length_eq_zero_iff]
          simpa using hfs
        have htail : (under es name).tail = [] := by
          rw [← List.length_eq_zero_iff, List.length_tail]
          omega
        rw [if_pos hf, htail] at hinsert
        have hone : (under (insertEntry f.1 f.2 es) name).length ≤ 1 := by
          rw [hinsert]
          exact Nat.le_refl 1
        rw [ih hone (by simp [hrest]), if_pos hrest, hinsert, under_cons_of_eq hf, hrest,
          if_neg (List.cons_ne_nil _ _)]
      · rw [under_cons_of_ne hf] at hfs
        rw [if_neg hf] at hinsert
        rw [ih (hinsert ▸ hes) hfs, hinsert, under_cons_of_ne hf]

end Under

theorem forall_mem_insertEntry {P Q : Value → Prop} {k v : Value} {es : List (Value × Value)}
    (hk : P k) (hv : Q v) (hes : ∀ e ∈ es, P e.1 ∧ Q e.2) :
    ∀ e ∈ insertEntry k v es, P e.1 ∧ Q e.2 := by
  induction es with
  | nil => simpa [insertEntry] using ⟨hk, hv⟩
  | cons e es ih =>
      obtain ⟨⟨hkey, hvalue⟩, hrest⟩ := List.forall_mem_cons.mp hes
      unfold insertEntry
      split
      · exact List.forall_mem_cons.mpr ⟨⟨hkey, hv⟩, hrest⟩
      · exact List.forall_mem_cons.mpr ⟨⟨hkey, hvalue⟩, ih hrest⟩

theorem forall_mem_foldl_insertEntry {P Q : Value → Prop} {es fs : List (Value × Value)}
    (hes : ∀ e ∈ es, P e.1 ∧ Q e.2) (hfs : ∀ f ∈ fs, P f.1 ∧ Q f.2) :
    ∀ e ∈ fs.foldl (fun es f => insertEntry f.1 f.2 es) es, P e.1 ∧ Q e.2 := by
  induction fs generalizing es with
  | nil => exact hes
  | cons f fs ih =>
      obtain ⟨⟨hkey, hvalue⟩, hrest⟩ := List.forall_mem_cons.mp hfs
      exact ih (forall_mem_insertEntry hkey hvalue hes) hrest

theorem jsonEntries_ok_iff (es : List (Value × Value)) :
    (∃ parts, jsonEntries es = .ok parts) ↔
      ∀ e ∈ es, e.1.jsonName?.isSome = true ∧ ∃ part, e.2.json = .ok part := by
  induction es with
  | nil => simp [jsonEntries]
  | cons e es ih =>
      obtain ⟨k, v⟩ := e
      rw [List.forall_mem_cons, ← ih, jsonEntries]
      cases hname : k.jsonName? with
      | none => simp
      | some name =>
          cases hpart : v.json with
          | error kind => simp
          | ok part => cases jsonEntries es <;> simp [Except.map]

-- A map can be written as JSON if all its keys can serve as names and all its values can be written.
theorem json_map_ok_iff (es : List (Value × Value)) :
    (∃ line, (map es).json = .ok line) ↔
      ∀ e ∈ es, e.1.jsonName?.isSome = true ∧ ∃ part, e.2.json = .ok part := by
  rw [← jsonEntries_ok_iff, json]
  cases jsonEntries es <;> simp [Except.map]

-- A name that is not how anything but a text is written.
structure PlainName (name : String) : Prop where
  literals : name ∉ ["null", "true", "false", "NaN", "Infinity", "-Infinity"]
  letters : ¬ Binary64.AllNumeric name

theorem jsonFloat_cases (x : Binary64) :
    jsonFloat x ∈ ["NaN", "Infinity", "-Infinity"] ∨ Binary64.AllNumeric (jsonFloat x) := by
  unfold jsonFloat Binary64.text
  cases x.isNaN with
  | true => exact .inl (by simp)
  | false =>
      cases x.isInfinite with
      | true => cases x.negative <;> exact .inl (by simp)
      | false =>
          have hsign : Binary64.AllNumeric (if x.negative then "-" else "") :=
            Binary64.allNumeric_ite (by decide) (by decide)
          exact .inr (hsign.append x.allNumeric_absText)

theorem jsonName?_eq_some_iff {name : String} (h : PlainName name) (k : Value) :
    k.jsonName? = some name ↔ k.text? = some name := by
  cases k with
  | none =>
      refine ⟨fun heq => absurd ?_ h.literals, fun heq => by cases heq⟩
      rw [← Option.some_inj.mp heq]
      decide
  | bool b =>
      refine ⟨fun heq => absurd ?_ h.literals, fun heq => by cases heq⟩
      rw [← Option.some_inj.mp heq]
      cases b <;> decide
  | int n =>
      refine ⟨fun heq => absurd ?_ h.letters, fun heq => by cases heq⟩
      rw [← Option.some_inj.mp heq]
      exact Binary64.allNumeric_int n
  | float x =>
      refine ⟨fun heq => ?_, fun heq => by cases heq⟩
      have hname : jsonFloat x = name := Option.some_inj.mp heq
      rcases jsonFloat_cases x with hliteral | hnumeric
      · exact absurd (List.mem_append_right ["null", "true", "false"] (hname ▸ hliteral)) h.literals
      · exact absurd (hname ▸ hnumeric) h.letters
  | text | level => exact Iff.rfl
  | bytes | list | tuple | set | map | role => exact Iff.rfl

end RoleAccess.Value
