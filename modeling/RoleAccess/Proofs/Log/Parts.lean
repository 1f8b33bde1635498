import RoleAccess.Proofs.Log.Attributes

namespace RoleAccess

theorem mapError_ok_iff {α β γ : Type} {x : Except α γ} {f : α → β} {c : γ} :
    x.mapError f = .ok c ↔ x = .ok c := by
  cases x <;> simp [Except.mapError]

theorem bind_ok_iff {α β γ : Type} {x : Except α β} {f : β → Except α γ} {c : γ} :
    (x >>= f) = .ok c ↔ ∃ b, x = .ok b ∧ f b = .ok c := by
  cases x <;> simp [bind, Except.bind]

theorem eq_ok_of_toOption {α β : Type} {x : Except α β} {b : β} (h : x.toOption = some b) :
    x = .ok b := by
  cases x with
  | error e => cases h
  | ok c => exact congrArg Except.ok (Option.some_inj.mp h)

theorem forM_ok_iff {α ε : Type} {f : α → Except ε Unit} {xs : List α} :
    xs.forM f = .ok () ↔ ∀ x ∈ xs, f x = .ok () := by
  induction xs with
  | nil => simp [pure, Except.pure]
  | cons x xs ih =>
      have hcons : (x :: xs).forM f = f x >>= fun _ => xs.forM f := rfl
      rw [hcons, bind_ok_iff, List.forall_mem_cons, ← ih]
      exact ⟨fun ⟨_, hx, hxs⟩ => ⟨hx, hxs⟩, fun ⟨hx, hxs⟩ => ⟨(), hx, hxs⟩⟩

-- What is made of all items of a list, if something is made of each.
theorem mapM_map_ok_iff {α β γ ε : Type} [Inhabited β] {f : α → Except ε β} {h : α → β → γ}
    {xs : List α} {out : List γ} :
    (xs.mapM fun x => (f x).map (h x)) = .ok out ↔
      (∀ x ∈ xs, ∃ b, f x = .ok b) ∧ out = xs.map fun x => h x ((f x).toOption.getD default) := by
  induction xs generalizing out with
  | nil => simp [pure, Except.pure, eq_comm]
  | cons x xs ih =>
      simp only [List.mapM_cons, bind_ok_iff, ih, List.forall_mem_cons, List.map_cons]
      cases f x <;> simp [Except.map, pure, Except.pure, Except.toOption, eq_comm]

namespace Record

-- The line that previews an attribute, where there is one.
def previewOf (limits : Limits) (d : Datum) : String := (line? limits d).toOption.getD default

-- What is written under a name that is not kept for the record: an attribute, or else what the
-- record has of its own.
def inFront (limits : Limits) (attributes : List (Value × Datum)) (name : String) (own : Value) :
    Value :=
  (Value.field? attributes name).elim own fun d => .text (previewOf limits d)

-- What is written of the context under a name.
def contextLine (limits : Limits) (r : Record) (name : String) : Option String :=
  (r.context? limits name).toOption.getD default

-- The attributes that are written under their own names.
def freeAttributes (r : Record) : List (Value × Datum) :=
  r.attributes.filter fun e => e.1.text?.all (· ∉ reservedNames)

variable {limits : Limits} {style : Style} {r : Record} {p : Parts} {name : String}

theorem context_ok_iff {context : List (String × Option String)} :
    r.context limits = .ok context ↔
      (∀ name ∈ contextNames, ∃ line, r.context? limits name = .ok line) ∧
        context = contextNames.map fun name => (name, r.contextLine limits name) :=
  mapM_map_ok_iff

theorem extras_ok_iff {extras : List (Value × String)} :
    r.extras limits = .ok extras ↔
      (∀ e ∈ r.freeAttributes, ∃ line, line? limits e.2 = .ok line) ∧
        extras = r.freeAttributes.map fun e => (e.1, previewOf limits e.2) :=
  mapM_map_ok_iff

theorem parts_ok_iff : r.parts limits style = .ok p ↔
    r.timestamp limits style = .ok p.timestamp ∧ r.message limits = .ok p.message ∧
      r.context limits = .ok p.context ∧ r.raised.text? = .ok p.exception ∧
      r.extras limits = .ok p.extras := by
  simp only [parts, bind_ok_iff, pure, Except.pure, Except.ok.injEq]
  constructor
  · rintro ⟨timestamp, htimestamp, message, hmessage, context, hcontext, exception, hexception,
      extras, hextras, rfl⟩
    exact ⟨htimestamp, hmessage, hcontext, hexception, hextras⟩
  · rintro ⟨htimestamp, hmessage, hcontext, hexception, hextras⟩
    exact ⟨_, htimestamp, _, hmessage, _, hcontext, _, hexception, _, hextras, rfl⟩

-- An attribute that is neither kept for the record nor without a preview is written.
theorem line?_ok_of_field? (hextras : r.extras limits = .ok p.extras)
    (hreserved : name ∉ reservedNames) {d : Datum}
    (hd : Value.field? r.attributes name = some d) : ∃ line, line? limits d = .ok line := by
  obtain ⟨e, hfound, rfl⟩ := Option.map_eq_some_iff.mp hd
  have hname : e.1.text? = some name := by simpa using List.find?_some hfound
  refine (extras_ok_iff.mp hextras).1 e (List.mem_filter.mpr ⟨List.mem_of_find?_eq_some hfound, ?_⟩)
  simpa [hname] using hreserved

namespace Parts

theorem contextFields_eq (hcontext : r.context limits = .ok p.context) :
    p.contextFields = contextNames.filterMap fun name =>
      (r.contextLine limits name).map fun s => (.text name, .text s) := by
  rw [contextFields, (context_ok_iff.mp hcontext).2, List.filterMap_map]
  rfl

theorem under_contextFields (hcontext : r.context limits = .ok p.context) (name : String) :
    Value.under p.contextFields name =
      if name ∈ contextNames then ((r.contextLine limits name).map .text).toList else [] := by
  rw [contextFields_eq hcontext]
  exact Value.under_filterMap_texts (r.contextLine limits) (by decide) name

theorem under_exceptionFields (hname : name ≠ "exception") :
    Value.under p.exceptionFields name = [] := by
  unfold exceptionFields
  cases p.exception with
  | none => rfl
  | some s =>
      have hne : (Value.text "exception").text? ≠ some name :=
        fun h => hname (Option.some_inj.mp h).symm
      exact Value.under_cons_of_ne hne []

theorem under_ownFields (hcontext : r.context limits = .ok p.context) (hname : name ≠ "exception") :
    Value.under (p.ownFields r) name = Value.under (p.coreFields r) name ++
      if name ∈ contextNames then ((r.contextLine limits name).map .text).toList else [] := by
  rw [ownFields, Value.under_append, Value.under_append, under_contextFields hcontext,
    under_exceptionFields hname, List.append_nil]

theorem key_of_mem_coreFields {e : Value × Value} (he : e ∈ p.coreFields r) :
    ∃ s ∈ ["timestamp", "level", "logger", "message"], e.1 = .text s := by
  have hkey : e.1 ∈ ["timestamp", "level", "logger", "message"].map Value.text :=
    List.mem_map_of_mem he
  obtain ⟨s, hs, hkey⟩ := List.mem_map.mp hkey
  exact ⟨s, hs, hkey.symm⟩

theorem under_ownFields_of_context (hcontext : r.context limits = .ok p.context)
    (hname : name ∈ contextNames) :
    Value.under (p.ownFields r) name = ((r.contextLine limits name).map .text).toList := by
  have hcore : ∀ name ∈ contextNames, name ≠ "exception" ∧
      name ∉ ["timestamp", "level", "logger", "message"] := by decide
  obtain ⟨hexception, hnew⟩ := hcore name hname
  have hnone : Value.under (p.coreFields r) name = [] := by
    rw [Value.under_eq_nil_iff]
    intro e he htext
    obtain ⟨s, hs, hkey⟩ := key_of_mem_coreFields he
    rw [hkey] at htext
    cases htext
    exact hnew hs
  rw [under_ownFields hcontext hexception, if_pos hname, hnone, List.nil_append]

theorem under_extraFields (hextras : r.extras limits = .ok p.extras) (name : String) :
    Value.under p.extraFields name =
      (Value.under r.freeAttributes name).map fun d => .text (previewOf limits d) := by
  rw [extraFields, Value.under_map Value.text, (extras_ok_iff.mp hextras).2,
    Value.under_map (previewOf limits), List.map_map]
  rfl

theorem under_extraFields_of_reserved (hextras : r.extras limits = .ok p.extras)
    (h : name ∈ reservedNames) : Value.under p.extraFields name = [] := by
  have hnone : Value.under r.freeAttributes name = [] := by
    rw [Value.under_eq_nil_iff]
    intro e he hname
    have hfree := (List.mem_filter.mp he).2
    rw [hname] at hfree
    exact of_decide_eq_true hfree h
  rw [under_extraFields hextras, hnone]
  rfl

theorem under_extraFields_of_not_reserved (hextras : r.extras limits = .ok p.extras)
    (hforeign : LogSystem.Foreign r.attributes) (h : name ∉ reservedNames) :
    Value.under p.extraFields name =
      ((Value.field? r.attributes name).map fun d => .text (previewOf limits d)).toList := by
  have hfree (e : Value × Datum) (he : e.1.text? = some name) :
      e.1.text?.all (· ∉ reservedNames) = true := by simpa [he] using h
  have hkept : Value.under r.freeAttributes name = Value.under r.attributes name :=
    Value.under_filter hfree r.attributes
  rw [under_extraFields hextras, hkept, Value.under_eq_toList_field? hforeign.distinct]
  cases Value.field? r.attributes name <;> rfl

-- A name that is kept for the record stands for what the record has of its own.
theorem under_fields_of_reserved (hextras : r.extras limits = .ok p.extras)
    (hreserved : name ∈ reservedNames) (hown : (Value.under (p.ownFields r) name).length ≤ 1) :
    Value.under (p.fields r) name = Value.under (p.ownFields r) name := by
  have hnone := under_extraFields_of_reserved hextras hreserved
  have hlength : (Value.under p.extraFields name).length ≤ 1 := by
    rw [hnone]
    exact Nat.zero_le 1
  rw [fields, Value.under_foldl_insertEntry hown hlength, if_pos hnone]

-- Any other name stands for an extra attribute, if there is one.
theorem under_fields_of_not_reserved (hextras : r.extras limits = .ok p.extras)
    (hforeign : LogSystem.Foreign r.attributes) (hreserved : name ∉ reservedNames) {own : Value}
    (hown : Value.under (p.ownFields r) name = [own]) :
    Value.under (p.fields r) name = [inFront limits r.attributes name own] := by
  have hextra := under_extraFields_of_not_reserved hextras hforeign hreserved
  have hone : (Value.under (p.ownFields r) name).length ≤ 1 := by
    rw [hown]
    exact Nat.le_refl 1
  have hlength : (Value.under p.extraFields name).length ≤ 1 := by
    rw [hextra]
    exact Option.length_toList_le
  rw [fields, Value.under_foldl_insertEntry hone hlength, hextra, hown, inFront]
  cases Value.field? r.attributes name <;> rfl

end Parts

end Record

end RoleAccess
