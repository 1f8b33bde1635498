import RoleAccess.Proofs.Decision.Checks
import RoleAccess.Proofs.Value.Equality

namespace RoleAccess.Check

-- At its end the token says that its check was passed.
def Passed (token : String) : Prop := "|true".toList <:+ token.toList

instance (token : String) : Decidable (Passed token) :=
  inferInstanceAs (Decidable ("|true".toList <:+ token.toList))

-- The token of an owner's request has it that the two are one id.
def Identified (action : String) (x y : Value) : Prop := Passed (ownToken action x y)

instance (action : String) (x y : Value) : Decidable (Identified action x y) :=
  inferInstanceAs (Decidable (Passed (ownToken action x y)))

theorem passed_token_iff (check : Check) (action : String) (passed : Bool) :
    Passed (check.token action passed) ↔ passed = true := by
  have htoken : (check.token action passed).toList =
      (action.toList ++ ':' :: check.qualifier.toList) ++
        '|' :: (Permission.outcome passed).toList := by
    simp [token, Permission.token, Permission.qualifierSeparator, Permission.resultSeparator]
  unfold Passed
  rw [htoken]
  cases passed with
  | true => exact ⟨fun _ => rfl, fun _ => List.suffix_append _ _⟩
  | false =>
      refine ⟨fun h => ?_, fun h => absurd h Bool.false_ne_true⟩
      -- From the end on, the two outcomes differ in their second letter.
      have hreverse := List.reverse_prefix.mpr h
      simp [Permission.outcome] at hreverse

theorem identified_iff (action : String) (x y : Value) :
    Identified action x y ↔ x.kind = y.kind ∧ x.equal y = true := by
  rw [Identified, ownToken, passed_token_iff, sameId_iff]

theorem groupToken_of_elements {members : Value} {items : List Value}
    (h : members.elements? = some items) (action : String) (x : Value) :
    groupToken action x members = .ok (group.token action (isMember x items)) := by
  rw [groupToken, h]

variable {action : String} {x y z : Value} {items : List Value}

theorem Identified.symm (h : Identified action x y) : Identified action y x := by
  rw [identified_iff] at h ⊢
  exact ⟨h.1.symm, Value.equal_symm h.2⟩

theorem Identified.trans (hxy : Identified action x y) (hyz : Identified action y z) :
    Identified action x z := by
  rw [identified_iff] at hxy hyz ⊢
  exact ⟨hxy.1.trans hyz.1, Value.equal_trans hxy.2 hyz.2⟩

theorem identified_self_iff (action : String) (hroles : x.HoldsRoles) :
    Identified action x x ↔ x.NaNFree := by
  rw [identified_iff, Value.equal_self_iff hroles]
  exact and_iff_right rfl

theorem isMember_iff_identified (action : String) (x : Value) (items : List Value) :
    isMember x items = true ↔ ∃ m ∈ items, Identified action x m := by
  simp only [isMember_iff, identified_iff]

theorem isMember_congr {others : List Value} (h : ∀ m, m ∈ others ↔ m ∈ items) :
    isMember x others = isMember x items := by
  rw [Bool.eq_iff_iff, isMember_iff, isMember_iff]
  simp only [h]

theorem isMember_of_identified (h : Identified action x y) (items : List Value) :
    isMember y items = isMember x items := by
  rw [Bool.eq_iff_iff, isMember_iff_identified action, isMember_iff_identified action]
  constructor
  · rintro ⟨m, hm, hym⟩
    exact ⟨m, hm, h.trans hym⟩
  · rintro ⟨m, hm, hxm⟩
    exact ⟨m, hm, h.symm.trans hxm⟩

-- Ids are compared as identities, undefined numbers apart. Of sets and maps the order does not
-- matter, and of the members of a group neither the order nor how often they are named.
theorem own_identifies_ids (action : String) :
    (∀ x y, Identified action x y → Identified action y x) ∧
    (∀ x y z, Identified action x y → Identified action y z → Identified action x z) ∧
    (∀ x : Value, x.HoldsRoles → (Identified action x x ↔ x.NaNFree)) ∧
    (∀ x y, Identified action x y → x.NaNFree ∧ y.NaNFree) ∧
    (∀ xs ys, Value.Unequal xs → Value.Unequal ys →
      (Identified action (.set xs) (.set ys) ↔
        xs.length = ys.length ∧ ∀ x ∈ xs, ∃ y ∈ ys, x.equal y = true)) ∧
    (∀ es fs : List (Value × Value), Value.Unequal (es.map (·.1)) →
      Value.Unequal (fs.map (·.1)) →
      (Identified action (.map es) (.map fs) ↔ es.length = fs.length ∧
        ∀ e ∈ es, ∃ f ∈ fs, e.1.equal f.1 = true ∧ e.2.equal f.2 = true)) ∧
    ∀ (x members : Value) (items : List Value), members.elements? = some items →
      ∃ token, groupToken action x members = .ok token ∧
        (Passed token ↔ ∃ m ∈ items, Identified action x m) ∧
        (∀ (others : Value) (otherItems : List Value), others.elements? = some otherItems →
          (∀ m, m ∈ otherItems ↔ m ∈ items) → groupToken action x others = .ok token) ∧
        ∀ y, Identified action x y → groupToken action y members = .ok token := by
  refine ⟨fun _ _ => .symm, fun _ _ _ => .trans, fun _ => identified_self_iff action, ?_, ?_, ?_,
    fun x members items hitems => ?_⟩
  · intro x y h
    have hequal := ((identified_iff action x y).mp h).2
    exact ⟨Value.nanFree_of_equal hequal, Value.nanFree_of_equal (Value.equal_symm hequal)⟩
  · intro xs ys hxs hys
    rw [identified_iff, Value.equal_set_iff hxs hys]
    exact and_iff_right rfl
  · intro es fs hes hfs
    rw [identified_iff, Value.equal_map_iff hes hfs]
    exact and_iff_right rfl
  · refine ⟨_, groupToken_of_elements hitems action x, ?_, fun others otherItems hothers h => ?_,
      fun y h => ?_⟩
    · rw [passed_token_iff, isMember_iff_identified action]
    · rw [groupToken_of_elements hothers, isMember_congr h]
    · rw [groupToken_of_elements hitems, isMember_of_identified h]

def seven : Value := .float ⟨0x401c000000000000⟩

def undefined : Value := .float ⟨0x7ff8000000000000⟩

def ticket : List (Value × Value) :=
  [(.text "number", .int 7), (.text "tags", .set [.text "new"])]

def reissued : List (Value × Value) :=
  [(.text "tags", .set [.text "new"]), (.text "number", seven)]

-- The two tickets are one id, although the entries come in another order and one of the numbers has
-- a point. With a number that is not defined a list is no id.
theorem own_identifies_ids_tickets :
    Identified "edit" (.map reissued) (.map ticket) ∧
    Identified "edit" (.map reissued) (.map reissued) ∧
    Identified "edit" (.set [.int 7]) (.set [seven]) ∧
    Identified "edit" (.list [seven]) (.list [seven]) ∧
    ¬ Identified "edit" (.list [undefined]) (.list [undefined]) ∧
    ∃ token, groupToken "edit" (.map ticket) (.tuple [.none, .map reissued]) = .ok token ∧
      Passed token ∧
      groupToken "edit" (.map ticket) (.list [.map reissued, .none, .none]) = .ok token ∧
      groupToken "edit" (.map reissued) (.tuple [.none, .map reissued]) = .ok token := by
  obtain ⟨hsymm, htrans, hself, hnan, hset, hmap, hgroup⟩ := own_identifies_ids "edit"
  have htickets : Identified "edit" (.map ticket) (.map reissued) := by
    refine (hmap _ _ ?_ ?_).mpr ⟨rfl, by decide +kernel⟩
    · simp [Value.Unequal, ticket, Value.equal, Value.plainEqual, Value.magnitude?, Value.text?]
    · simp [Value.Unequal, reissued, Value.equal, Value.plainEqual, Value.magnitude?, Value.text?]
  have hsets : Identified "edit" (.set [.int 7]) (.set [seven]) :=
    (hset _ _ (List.pairwise_singleton _ _) (List.pairwise_singleton _ _)).mpr
      ⟨rfl, by decide +kernel⟩
  have hitem : ∀ x, Value.Occurs x (.list [seven]) → x = .list [seven] ∨ x = seven := by
    intro x h
    rcases h.cases with hself | ⟨p, hp, hoccurs⟩
    · exact .inl hself.symm
    · rw [List.mem_singleton.mp hp] at hoccurs
      rcases hoccurs.cases with hseven | ⟨_, hnone, _⟩
      · exact .inr hseven.symm
      · cases hnone
  have hroles : (Value.list [seven]).HoldsRoles := by
    intro r h
    rcases hitem _ h with heq | heq <;> cases heq
  have hfree : (Value.list [seven]).NaNFree := by
    intro x hx h
    rcases hitem _ h with heq | heq <;> cases heq
    exact absurd hx (by decide)
  have hundefined : ¬ Identified "edit" (.list [undefined]) (.list [undefined]) := by
    intro h
    exact (hnan _ _ h).1 ⟨0x7ff8000000000000⟩ (by decide)
      ((Value.Occurs.self _).of_part (List.mem_singleton.mpr rfl))
  obtain ⟨token, htoken, hpassed, hothers, hother⟩ :=
    hgroup (.map ticket) (.tuple [.none, .map reissued]) _ rfl
  refine ⟨hsymm _ _ htickets, htrans _ _ _ (hsymm _ _ htickets) htickets, hsets,
    (hself _ hroles).mpr hfree, hundefined, token, htoken, hpassed.mpr ⟨.map reissued, by simp, htickets⟩,
    hothers _ _ rfl ?_, hother _ htickets⟩
  intro m
  simp [or_comm]

end RoleAccess.Check
