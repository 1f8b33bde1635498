import RoleAccess.Proofs.Roster.WellFormed

namespace RoleAccess

namespace Role

theorem extend_of_nodup {held : List String} (h : held.Nodup) (new : List String) :
    extend held new = (held ++ new).eraseDups := by
  unfold extend
  induction new generalizing held with
  | nil => rw [List.foldl_nil, List.append_nil, List.eraseDups_of_nodup h]
  | cons token new ih =>
      rw [List.foldl_cons]
      by_cases htoken : token ∈ held
      · have hremoved : (token :: new).removeAll held = new.removeAll held := by
          simp [List.cons_removeAll, htoken]
        rw [if_pos htoken, ih h, List.eraseDups_append, List.eraseDups_append, hremoved]
      · have hnext : (held ++ [token]).Nodup := by
          rw [List.nodup_append]
          refine ⟨h, List.nodup_singleton token, ?_⟩
          rintro a ha b hb rfl
          exact htoken (List.mem_singleton.mp hb ▸ ha)
        rw [if_neg htoken, ih hnext, List.append_assoc, List.singleton_append]

theorem rebuild?_ok (old new : Role) : ∃ r, rebuild? old new = .ok r :=
  ⟨_, ofValue?_toValue _⟩

theorem WellFormed.overlay_eq {old : Role} (h : old.WellFormed) (new : Role) :
    old.overlay new = old.merge new := by
  have hpermissions : old.permissions.absorb (fun held ts => extend (held.getD []) ts)
      new.permissions = old.permissions.absorb addTokens new.permissions := by
    refine Table.absorb_congr (P := fun _ ts => ts.Nodup) h.nodup_entry ?_ ?_
    · exact fun e _ held _ => nodup_addTokens held e.2
    · intro e _ held hheld
      cases held with
      | none => exact extend_of_nodup List.nodup_nil e.2
      | some ts => exact extend_of_nodup (hheld ts rfl) e.2
  unfold overlay Role.merge
  rw [hpermissions]

theorem WellFormed.rebuild?_eq {old : Role} (h : old.WellFormed) (new : Role) :
    rebuild? old new = .ok (old.merge new) := by
  rw [rebuild?, h.overlay_eq, (h.merge new).ofValue?_toValue]

end Role

namespace Roster

namespace Progress

-- The progress when all is done at once.
def leap (p : Progress) (es : List (RoleId × Filed)) : Progress where
  roster := p.roster.merge ⟨⟨es⟩⟩
  added := p.added + es.countP fun e => !p.roster.contains e.1
  merged := p.merged + es.countP fun e => p.roster.contains e.1

theorem take?_ok (p : Progress) (id : RoleId) (filed : Filed) :
    ∃ next, p.take? id filed = .ok next := by
  unfold take?
  cases p.roster.roles.get? id with
  | none => exact ⟨_, rfl⟩
  | some held =>
      obtain ⟨role, hrole⟩ := Role.rebuild?_ok held.role filed.role
      simp only [hrole, Except.map]
      exact ⟨_, rfl⟩

-- No step fails, whatever the roles that are held and the roles that come in.
theorem takeAll_ok (p : Progress) (es : List (RoleId × Filed)) : (p.takeAll es).1 = .ok () := by
  induction es generalizing p with
  | nil => rfl
  | cons e es ih =>
      obtain ⟨next, hnext⟩ := p.take?_ok e.1 e.2
      rw [takeAll, hnext]
      exact ih next

-- The roles that the rest of an update will find are well-formed.
def Ready (p : Progress) (es : List (RoleId × Filed)) : Prop :=
  ∀ e ∈ es, ∀ held, p.roster.roles.get? e.1 = some held → held.role.WellFormed

theorem take?_eq {p : Progress} {id : RoleId} {filed : Filed} (h : p.Ready [(id, filed)]) :
    p.take? id filed = .ok (p.leap [(id, filed)]) := by
  have halter : p.roster.merge ⟨⟨[(id, filed)]⟩⟩ =
      ⟨p.roster.roles.alter id fun held => adopt held filed⟩ := rfl
  unfold take? leap
  rw [halter]
  cases hid : p.roster.roles.get? id with
  | none =>
      have hput : p.roster.roles.put id filed =
          p.roster.roles.alter id fun held => adopt held filed :=
        Table.alter_congr (by rw [hid]; rfl)
      simp [hput, contains, Table.contains, hid]
  | some held =>
      have hheld : held.role.WellFormed := h (id, filed) List.mem_cons_self held hid
      have hput : p.roster.roles.put id ⟨held.key, held.role.merge filed.role⟩ =
          p.roster.roles.alter id fun held => adopt held filed :=
        Table.alter_congr (by rw [hid]; rfl)
      simp [hheld.rebuild?_eq, Except.map, hput, contains, Table.contains, hid]

theorem get?_leap_of_ne (p : Progress) {e : RoleId × Filed} {id : RoleId} (h : id ≠ e.1) :
    (p.leap [e]).roster.roles.get? id = p.roster.roles.get? id := by
  have halter : (p.leap [e]).roster.roles =
      p.roster.roles.alter e.1 fun held => adopt held e.2 := rfl
  rw [halter, Table.get?_alter, if_neg h]

theorem ne_of_key_not_mem {e d : RoleId × Filed} {es : List (RoleId × Filed)}
    (h : e.1 ∉ es.map (·.1)) (hd : d ∈ es) : d.1 ≠ e.1 := by
  intro hde
  rw [← hde] at h
  exact h (List.mem_map_of_mem hd)

theorem leap_cons (p : Progress) {e : RoleId × Filed} {es : List (RoleId × Filed)}
    (h : e.1 ∉ es.map (·.1)) : p.leap (e :: es) = (p.leap [e]).leap es := by
  have hcontains : ∀ d ∈ es, (p.leap [e]).roster.contains d.1 = p.roster.contains d.1 := by
    intro d hd
    exact p.roster.roles.contains_alter_of_ne (ne_of_key_not_mem h hd) fun held => adopt held e.2
  have hnew : es.countP (fun d => !(p.leap [e]).roster.contains d.1) =
      es.countP fun d => !p.roster.contains d.1 :=
    List.countP_congr fun d hd => by rw [hcontains d hd]
  have hknown : es.countP (fun d => (p.leap [e]).roster.contains d.1) =
      es.countP fun d => p.roster.contains d.1 :=
    List.countP_congr fun d hd => by rw [hcontains d hd]
  have hsplit : ∀ q : RoleId × Filed → Bool, (e :: es).countP q = [e].countP q + es.countP q :=
    fun q => by rw [← List.singleton_append, List.countP_append]
  have hadded : (p.leap (e :: es)).added = ((p.leap [e]).leap es).added := by
    change p.added + _ = p.added + _ + _
    rw [hnew, hsplit, Nat.add_assoc]
  have hmerged : (p.leap (e :: es)).merged = ((p.leap [e]).leap es).merged := by
    change p.merged + _ = p.merged + _ + _
    rw [hknown, hsplit, Nat.add_assoc]
  exact congrArg₂ (mk ((p.leap [e]).leap es).roster) hadded hmerged

-- Taken in one after the other, the roles come out as if they were merged all at once.
theorem takeAll_eq {p : Progress} {es : List (RoleId × Filed)} (hes : (es.map (·.1)).Nodup)
    (h : p.Ready es) : p.takeAll es = (.ok (), p.leap es) := by
  induction es generalizing p with
  | nil => rfl
  | cons e es ih =>
      obtain ⟨hhead, htail⟩ := List.nodup_cons.mp hes
      have hfirst : p.Ready [e] := by
        intro d hd
        exact h d (List.mem_cons.mpr (.inl (List.mem_singleton.mp hd)))
      -- The keys to come are others, so what is held under them is what was held before.
      have hrest : (p.leap [e]).Ready es := by
        intro d hd held hheld
        rw [p.get?_leap_of_ne (ne_of_key_not_mem hhead hd)] at hheld
        exact h d (List.mem_cons_of_mem _ hd) held hheld
      rw [takeAll, take?_eq hfirst, p.leap_cons hhead]
      exact ih htail hrest

end Progress

theorem mergeInPlace_eq {roster update : Roster} (h : roster.WellFormed)
    (hupdate : update.roles.Distinct) :
    roster.mergeInPlace update =
      (.ok (), ⟨roster.merge update, roster.countNew update,
        update.size - roster.countNew update⟩) := by
  have hready : Progress.Ready ⟨roster, 0, 0⟩ update.roles.entries :=
    fun e _ held hheld => h.role hheld
  have hcount : update.roles.entries.countP (fun e => !roster.contains e.1) =
      roster.countNew update := by
    simp [countNew, ids, Table.keys, List.countP_map, Function.comp_def]
  have hsize := List.length_eq_countP_add_countP (fun e => !roster.contains e.1)
    (l := update.roles.entries)
  have hrest : update.roles.entries.countP (fun e => roster.contains e.1) =
      update.size - roster.countNew update := by
    rw [← hcount, size, Table.size, hsize]
    simp
  rw [mergeInPlace, Progress.takeAll_eq hupdate hready]
  simp only [Progress.leap, Nat.zero_add, hcount, hrest]

end Roster

end RoleAccess
