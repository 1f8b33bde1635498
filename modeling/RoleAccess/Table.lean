namespace RoleAccess

-- A finite map that remembers the order in which its keys arrived. Changing the value
-- of a key keeps the key's place, a new key goes to the end.
structure Table (κ α : Type) where
  entries : List (κ × α)
  deriving DecidableEq

namespace Table

variable {κ α β : Type}

def empty : Table κ α := ⟨[]⟩

def keys (t : Table κ α) : List κ := t.entries.map (·.1)

def values (t : Table κ α) : List α := t.entries.map (·.2)

def size (t : Table κ α) : Nat := t.entries.length

def mapValues (f : α → β) (t : Table κ α) : Table κ β := ⟨t.entries.map fun e => (e.1, f e.2)⟩

-- No key occurs twice.
def Distinct (t : Table κ α) : Prop := t.keys.Nodup

variable [DecidableEq κ]

def get? (t : Table κ α) (k : κ) : Option α := t.entries.lookup k

def contains (t : Table κ α) (k : κ) : Bool := (t.get? k).isSome

-- Sets the value of `k` to what `f` makes of the present one.
def alterEntries (k : κ) (f : Option α → α) : List (κ × α) → List (κ × α)
  | [] => [(k, f none)]
  | (j, v) :: es => if j = k then (j, f (some v)) :: es else (j, v) :: alterEntries k f es

def alter (t : Table κ α) (k : κ) (f : Option α → α) : Table κ α := ⟨alterEntries k f t.entries⟩

def put (t : Table κ α) (k : κ) (v : α) : Table κ α := t.alter k fun _ => v

-- Takes the entries of `u` in, one after the other: `f` makes the value of a key from the
-- one held so far and the one that comes in.
def absorb (f : Option α → β → α) (t : Table κ α) (u : Table κ β) : Table κ α :=
  u.entries.foldl (fun t e => t.alter e.1 fun held => f held e.2) t

-- Of a repeated key the first place and the last value count.
def ofList (es : List (κ × α)) : Table κ α := empty.absorb (fun _ v => v) ⟨es⟩

theorem get?_cons (j : κ) (v : α) (es : List (κ × α)) (k : κ) :
    (⟨(j, v) :: es⟩ : Table κ α).get? k = if k = j then some v else (⟨es⟩ : Table κ α).get? k := by
  by_cases h : k = j
  · simp [get?, h]
  · have h' : (k == j) = false := by simpa using h
    simp [get?, List.lookup_cons, h, h']

theorem keys_alter (t : Table κ α) (k : κ) (f : Option α → α) :
    (t.alter k f).keys = if k ∈ t.keys then t.keys else t.keys ++ [k] := by
  obtain ⟨es⟩ := t
  simp only [keys, alter]
  induction es with
  | nil => simp [alterEntries]
  | cons e es ih =>
    obtain ⟨j, v⟩ := e
    by_cases h : j = k
    · simp [alterEntries, h]
    · have h' : k ≠ j := fun hk => h hk.symm
      by_cases hmem : k ∈ es.map (·.1)
      · simp only [alterEntries, h, if_false, List.map_cons, ih, hmem, if_true, List.mem_cons,
          or_true]
      · simp only [alterEntries, h, if_false, List.map_cons, ih, hmem, List.mem_cons, h',
          or_self, List.cons_append]

theorem get?_alter (t : Table κ α) (k j : κ) (f : Option α → α) :
    (t.alter k f).get? j = if j = k then some (f (t.get? k)) else t.get? j := by
  obtain ⟨es⟩ := t
  simp only [alter]
  induction es with
  | nil => simp only [alterEntries, get?_cons]; rfl
  | cons e es ih =>
    obtain ⟨i, v⟩ := e
    by_cases hi : i = k
    · subst hi
      by_cases h : j = i <;> simp [alterEntries, get?_cons, h]
    · have hi' : k ≠ i := fun hk => hi hk.symm
      by_cases h : j = i
      · subst h
        simp [alterEntries, get?_cons, hi]
      · simp [alterEntries, get?_cons, hi, hi', h, ih]

theorem contains_iff (t : Table κ α) (k : κ) : t.contains k ↔ k ∈ t.keys := by
  obtain ⟨es⟩ := t
  simp only [contains, keys]
  induction es with
  | nil => simp [get?]
  | cons e es ih =>
    obtain ⟨j, v⟩ := e
    by_cases h : k = j
    · simp [get?_cons, h]
    · simp only [get?_cons, h, if_false, List.map_cons, List.mem_cons, false_or]
      exact ih

-- No operation brings a key in a second time.
theorem Distinct.alter {t : Table κ α} (h : t.Distinct) (k : κ) (f : Option α → α) :
    (t.alter k f).Distinct := by
  unfold Distinct
  rw [keys_alter]
  split
  · exact h
  · rename_i hk
    refine List.nodup_append.mpr ⟨h, List.pairwise_singleton _ _, ?_⟩
    intro a ha b hb hab
    have hbk : b = k := List.mem_singleton.mp hb
    exact hk (hbk ▸ hab ▸ ha)

theorem Distinct.absorb {t : Table κ α} (h : t.Distinct) (f : Option α → β → α)
    (u : Table κ β) : (t.absorb f u).Distinct := by
  obtain ⟨es⟩ := u
  unfold Table.absorb
  induction es generalizing t with
  | nil => exact h
  | cons e es ih => exact ih (h.alter e.1 fun held => f held e.2)

theorem distinct_ofList (es : List (κ × α)) : (ofList es).Distinct := by
  have h : (empty : Table κ α).Distinct := List.nodup_nil
  exact h.absorb _ _

end Table

end RoleAccess
