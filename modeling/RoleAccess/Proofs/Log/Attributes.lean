import RoleAccess.Log.System
import RoleAccess.Proofs.Value.Entries

namespace RoleAccess.LogSystem

-- Attributes as they come with a record: none has a name of the record's own, and no two have equal
-- keys.
structure Foreign (attributes : List (Value × Datum)) : Prop where
  names : ∀ name ∈ Record.ownNames, Value.under attributes name = []
  distinct : Value.Unequal (attributes.map (·.1))

theorem addAttribute_ok {extra : Extra} {key : Value} {attributes more : List (Value × Datum)}
    (h : addAttribute extra attributes key = .ok more) :
    ∃ d, more = attributes ++ [(key, d)] ∧ (∀ name ∈ Record.ownNames, key.text? ≠ some name) ∧
      ∀ e ∈ attributes, e.1.equal key = false := by
  unfold addAttribute at h
  split at h
  · cases h
  · split at h
    · cases h
    · rename_i hkey
      obtain ⟨hname, hequal⟩ := not_or.mp hkey
      split at h
      · rename_i d _
        cases h
        refine ⟨d, rfl, fun name hmem htext => hname ?_, fun e he => ?_⟩
        · simpa [htext] using .inr hmem
        · rw [Bool.eq_false_iff]
          exact fun heq => hequal (List.any_eq_true.mpr ⟨e, he, heq⟩)
      · cases h

theorem Foreign.concat {attributes : List (Value × Datum)} {key : Value} (h : Foreign attributes)
    (hname : ∀ name ∈ Record.ownNames, key.text? ≠ some name)
    (hequal : ∀ e ∈ attributes, e.1.equal key = false) (d : Datum) :
    Foreign (attributes ++ [(key, d)]) where
  names name hmem := by
    rw [Value.under_append, h.names name hmem, Value.under_cons_of_ne (hname name hmem)]
    rfl
  distinct := by
    rw [List.map_append]
    refine List.pairwise_append.mpr ⟨h.distinct, List.pairwise_singleton _ _, ?_⟩
    intro k hk j hj
    obtain ⟨e, he, rfl⟩ := List.mem_map.mp hk
    rw [List.mem_singleton.mp hj]
    exact hequal e he

theorem foreign_foldlM {extra : Extra} {keys : List Value}
    {attributes more : List (Value × Datum)} (hforeign : Foreign attributes)
    (h : keys.foldlM (addAttribute extra) attributes = .ok more) : Foreign more := by
  induction keys generalizing attributes with
  | nil =>
      cases h
      exact hforeign
  | cons key keys ih =>
      rw [List.foldlM_cons] at h
      cases hadded : addAttribute extra attributes key with
      | error e =>
          rw [hadded] at h
          cases h
      | ok added =>
          rw [hadded] at h
          obtain ⟨d, rfl, hname, hequal⟩ := addAttribute_ok hadded
          exact ih (hforeign.concat hname hequal d) h

theorem foreign_of_attributesOf {extra : Extra} {attributes : List (Value × Datum)}
    (h : attributesOf extra = .ok attributes) : Foreign attributes := by
  have hempty : Foreign [] := ⟨fun _ _ => rfl, List.Pairwise.nil⟩
  unfold attributesOf at h
  cases hkeys : extra.keys? with
  | error e =>
      rw [hkeys] at h
      cases h
  | ok keys =>
      rw [hkeys] at h
      exact foreign_foldlM hempty h

end RoleAccess.LogSystem
