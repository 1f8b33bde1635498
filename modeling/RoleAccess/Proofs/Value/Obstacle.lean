import RoleAccess.Value.Datum
import RoleAccess.Value.Json

namespace RoleAccess.Value

theorem within_ok_iff {α : Type} {limits : Limits} {v : Value} {made result : α} :
    v.within limits made = .ok result ↔
      v.obstacle? limits.digits limits.depth = Option.none ∧ made = result := by
  unfold within
  cases v.obstacle? limits.digits limits.depth <;> simp

-- A map can be shown if its keys and its values can, one step further inside.
theorem obstacleInEntries?_eq_none_iff {digits depth : Nat} {es : List (Value × Value)} :
    obstacleInEntries? digits depth es = Option.none ↔
      0 < depth ∧ ∀ e ∈ es, obstacle? digits (depth - 1) e.1 = Option.none ∧
        obstacle? digits (depth - 1) e.2 = Option.none := by
  cases depth with
  | zero => cases es <;> simp [obstacleInEntries?]
  | succ depth =>
      induction es with
      | nil => simp [obstacleInEntries?]
      | cons e es ih =>
          have hpos : 0 < depth + 1 := Nat.succ_pos depth
          rw [obstacleInEntries?, Option.or_eq_none_iff, Option.or_eq_none_iff, ih,
            List.forall_mem_cons]
          simp only [hpos, true_and, Nat.add_sub_cancel]

-- There is nothing inside of what can serve as a name.
theorem obstacle?_of_jsonName? {k : Value} (h : k.jsonName?.isSome = true) (digits m n : Nat) :
    obstacle? digits m k = obstacle? digits n k := by
  cases k with
  | none | bool | int | float | text | level => rfl
  | bytes | list | tuple | set | map | role => cases h

theorem obstacleAmong?_texts (digits depth : Nat) (texts : List String) :
    obstacleAmong? digits (depth + 1) (texts.map text) = Option.none := by
  induction texts with
  | nil => rfl
  | cons s texts ih =>
      rw [List.map_cons, obstacleAmong?, ih]
      rfl

end RoleAccess.Value
