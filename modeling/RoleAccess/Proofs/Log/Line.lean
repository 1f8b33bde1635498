import RoleAccess.Proofs.Log.Display
import RoleAccess.Proofs.Value.Obstacle

namespace RoleAccess

namespace Record

variable {limits : Limits} {style : Style} {r : Record} {p : Parts} {line : String}
  {fields : List (Value × Value)}

theorem jsonLine_ok_iff : jsonLine limits fields = .ok line ↔
    (Value.map fields).json = .ok line ∧
      Value.obstacleInEntries? limits.digits limits.depth fields = none := by
  have hobstacle : (Value.map fields).obstacle? limits.digits limits.depth =
      Value.obstacleInEntries? limits.digits limits.depth fields := by rw [Value.obstacle?]
  simp only [jsonLine, bind_ok_iff, mapError_ok_iff, Value.within_ok_iff, hobstacle]
  constructor
  · rintro ⟨_, hjson, hshown, rfl⟩
    exact ⟨hjson, hshown⟩
  · rintro ⟨hjson, hshown⟩
    exact ⟨line, hjson, hshown, rfl⟩

theorem checkLine_ok_iff : checkLine limits fields = .ok () ↔
    ∀ name ∈ lineNames,
      ((Value.field? fields name).getD .none).obstacle? limits.digits limits.depth = none := by
  simp only [checkLine, forM_ok_iff, mapError_ok_iff, Value.within_ok_iff, and_true]

theorem format_ok_iff : r.format limits style = .ok line ↔
    ∃ p, r.parts limits style = .ok p ∧
      if style.json then jsonLine limits (p.fields r) = .ok line
      else checkLine limits (p.fields r) = .ok () ∧ textLine (p.fields r) = line := by
  simp only [format, bind_ok_iff]
  refine exists_congr fun p => and_congr_right fun _ => ?_
  cases style.json with
  | true => rfl
  | false => cases checkLine limits (p.fields r) <;> simp [bind, Except.bind, pure, Except.pure]

theorem shownBy_of_format (hforeign : LogSystem.Foreign r.attributes)
    (h : r.format limits style = .ok line) :
    ∃ d, r.Bears limits style r.attributes d ∧ d.ShownBy style.json line := by
  obtain ⟨p, hparts, hline⟩ := format_ok_iff.mp h
  obtain ⟨d, hbears, hfills⟩ := exists_bears hforeign hparts
  refine ⟨d, hbears, ?_⟩
  unfold Display.ShownBy
  cases hjson : style.json with
  | true =>
      rw [hjson, if_pos rfl] at hline
      exact ⟨_, (jsonLine_ok_iff.mp hline).1, hfills.json⟩
  | false =>
      rw [hjson, if_neg Bool.false_ne_true] at hline
      exact hline.2.symm.trans hfills.textLine

-- Attributes that can be written: each of them has a preview, and a key that can serve as a name
-- where it is written as JSON.
structure Writable (limits : Limits) (style : Style) (attributes : List (Value × Datum)) :
    Prop where
  previews : ∀ e ∈ attributes, ∃ line, e.2.preview? limits Preview.defaultLimit = .ok line
  keys : style.json = true → ∀ e ∈ attributes,
    e.1.jsonName?.isSome = true ∧ e.1.obstacle? limits.digits limits.depth = none

theorem context?_ok (hwritable : Writable limits style r.attributes) (name : String) :
    ∃ line, r.context? limits name = .ok line := by
  unfold context?
  split
  · exact ⟨_, rfl⟩
  · exact ⟨_, rfl⟩
  · rename_i d _ hd
    obtain ⟨e, hfound, rfl⟩ := Option.map_eq_some_iff.mp hd
    obtain ⟨line, hline⟩ := hwritable.previews e (List.mem_of_find?_eq_some hfound)
    exact ⟨some line, by rw [line?, hline]; rfl⟩

-- What a record comes to alone is there with attributes that can be written, too.
theorem exists_parts_of_alone (halone : r.alone.parts limits style = .ok p)
    (hmessage : Value.field? r.attributes messageName = none)
    (hwritable : Writable limits style r.attributes) :
    ∃ q, r.parts limits style = .ok q ∧ q.coreFields r = p.coreFields r.alone := by
  obtain ⟨htimestamp, hown, -, hexception, -⟩ := parts_ok_iff.mp halone
  have hsaid : r.message limits = .ok p.message := by
    unfold Record.message
    rw [hmessage]
    exact hown
  have hcontext := context_ok_iff.mpr ⟨fun name _ => context?_ok hwritable name, rfl⟩
  have hlines : ∀ e ∈ r.freeAttributes, ∃ line, line? limits e.2 = .ok line := by
    intro e he
    obtain ⟨line, hline⟩ := hwritable.previews e (List.mem_filter.mp he).1
    exact ⟨line, mapError_ok_iff.mpr hline⟩
  have hextras := extras_ok_iff.mpr ⟨hlines, rfl⟩
  refine ⟨{ p with
    context := contextNames.map fun name => (name, r.contextLine limits name)
    extras := r.freeAttributes.map fun e => (e.1, previewOf limits e.2) }, ?_, rfl⟩
  exact parts_ok_iff.mpr ⟨htimestamp, hsaid, hcontext, hexception, hextras⟩

theorem fields_alone (halone : r.alone.parts limits style = .ok p) :
    p.fields r.alone = p.ownFields r.alone := by
  have hextras : Except.ok [] = Except.ok p.extras := (parts_ok_iff.mp halone).2.2.2.2
  rw [Parts.fields, Parts.extraFields, ← Except.ok.inj hextras]
  rfl

-- What holds of the core of a record and of all texts holds of all its fields, if the keys of its
-- attributes allow it.
theorem forall_mem_fields {P Q : Value → Prop} (hparts : r.parts limits style = .ok p)
    (hcore : ∀ e ∈ p.coreFields r, Q e.2) (hname : ∀ s, P (.text s)) (htext : ∀ s, Q (.text s))
    (hkeys : ∀ e ∈ r.attributes, P e.1) : ∀ e ∈ p.fields r, P e.1 ∧ Q e.2 := by
  obtain ⟨-, -, hcontext, -, hextras⟩ := parts_ok_iff.mp hparts
  have hextra : ∀ e ∈ p.extraFields, P e.1 ∧ Q e.2 := by
    intro e he
    obtain ⟨f, hf, rfl⟩ := List.mem_map.mp he
    rw [(extras_ok_iff.mp hextras).2] at hf
    obtain ⟨g, hg, rfl⟩ := List.mem_map.mp hf
    exact ⟨hkeys g (List.mem_filter.mp hg).1, htext _⟩
  have hown : ∀ e ∈ p.ownFields r, P e.1 ∧ Q e.2 := by
    intro e he
    rcases List.mem_append.mp he with hfront | hexception
    · rcases List.mem_append.mp hfront with hmem | hcontext
      · obtain ⟨s, -, hkey⟩ := Parts.key_of_mem_coreFields hmem
        exact ⟨hkey ▸ hname s, hcore e hmem⟩
      · obtain ⟨f, -, hentry⟩ := List.mem_filterMap.mp hcontext
        obtain ⟨s, -, rfl⟩ := Option.map_eq_some_iff.mp hentry
        exact ⟨hname _, htext s⟩
    · obtain ⟨s, -, rfl⟩ := Option.map_eq_some_iff.mp (Option.mem_toList.mp hexception)
      exact ⟨hname _, htext s⟩
  exact Value.forall_mem_foldl_insertEntry hown hextra

theorem exists_jsonLine_iff : (∃ line, jsonLine limits fields = .ok line) ↔
    0 < limits.depth ∧ ∀ e ∈ fields,
      (e.1.jsonName?.isSome = true ∧ e.1.obstacle? limits.digits (limits.depth - 1) = none) ∧
      (∃ part, e.2.json = .ok part) ∧ e.2.obstacle? limits.digits (limits.depth - 1) = none := by
  simp only [jsonLine_ok_iff, exists_and_right, Value.json_map_ok_iff,
    Value.obstacleInEntries?_eq_none_iff]
  grind

theorem exists_jsonLine (halone : ∃ line, jsonLine limits (p.ownFields r.alone) = .ok line)
    {q : Parts} (hparts : r.parts limits style = .ok q)
    (hcore : q.coreFields r = p.coreFields r.alone) (hkeys : ∀ e ∈ r.attributes,
      e.1.jsonName?.isSome = true ∧ e.1.obstacle? limits.digits limits.depth = none) :
    ∃ line, jsonLine limits (q.fields r) = .ok line := by
  obtain ⟨hdepth, hown⟩ := exists_jsonLine_iff.mp halone
  refine exists_jsonLine_iff.mpr ⟨hdepth, forall_mem_fields
    (P := fun k => k.jsonName?.isSome = true ∧
      k.obstacle? limits.digits (limits.depth - 1) = none)
    (Q := fun v => (∃ part, v.json = .ok part) ∧
      v.obstacle? limits.digits (limits.depth - 1) = none)
    hparts (fun e he => ?_) (fun _ => ⟨rfl, rfl⟩) (fun _ => ⟨⟨_, rfl⟩, rfl⟩) fun e he => ?_⟩
  · rw [hcore] at he
    exact (hown e (List.mem_append_left _ (List.mem_append_left _ he))).2
  · obtain ⟨hname, hshown⟩ := hkeys e he
    exact ⟨hname, (Value.obstacle?_of_jsonName? hname _ _ _).trans hshown⟩

theorem checkLine_ok (halone : checkLine limits (p.ownFields r.alone) = .ok ()) {q : Parts}
    (hparts : r.parts limits style = .ok q) (hcore : q.coreFields r = p.coreFields r.alone) :
    checkLine limits (q.fields r) = .ok () := by
  have hown := checkLine_ok_iff.mp halone
  have hshown : ∀ e ∈ q.coreFields r, e.2.obstacle? limits.digits limits.depth = none := by
    intro e he
    rw [hcore] at he
    simp only [Parts.coreFields, List.mem_cons, List.not_mem_nil, or_false] at he
    rcases he with rfl | rfl | rfl | rfl
    · exact hown "timestamp" (by decide)
    · exact hown "level" (by decide)
    · exact hown "logger" (by decide)
    · exact hown "message" (by decide)
  refine checkLine_ok_iff.mpr fun name hname => ?_
  cases hfield : Value.field? (q.fields r) name with
  | none => rfl
  | some v =>
      obtain ⟨e, hfound, rfl⟩ := Option.map_eq_some_iff.mp hfield
      exact (forall_mem_fields (P := fun _ => True)
        (Q := fun v => v.obstacle? limits.digits limits.depth = none) hparts hshown
        (fun _ => trivial) (fun _ => rfl) (fun _ _ => trivial) e
        (List.mem_of_find?_eq_some hfound)).2

theorem exists_format_of_alone (halone : ∃ line, r.alone.format limits style = .ok line)
    (hmessage : Value.field? r.attributes messageName = none)
    (hwritable : Writable limits style r.attributes) :
    ∃ line, r.format limits style = .ok line := by
  obtain ⟨line, halone⟩ := halone
  obtain ⟨p, hparts, hline⟩ := format_ok_iff.mp halone
  rw [fields_alone hparts] at hline
  obtain ⟨q, hdressed, hcore⟩ := exists_parts_of_alone hparts hmessage hwritable
  cases hjson : style.json with
  | true =>
      rw [hjson, if_pos rfl] at hline
      obtain ⟨line, hwritten⟩ := exists_jsonLine ⟨line, hline⟩ hdressed hcore (hwritable.keys hjson)
      refine ⟨line, format_ok_iff.mpr ⟨q, hdressed, ?_⟩⟩
      rw [hjson, if_pos rfl]
      exact hwritten
  | false =>
      rw [hjson, if_neg Bool.false_ne_true] at hline
      refine ⟨textLine (q.fields r), format_ok_iff.mpr ⟨q, hdressed, ?_⟩⟩
      rw [hjson, if_neg Bool.false_ne_true]
      exact ⟨checkLine_ok hline.1 hdressed hcore, rfl⟩

-- Nothing that comes along with a record shows up in the place of its role, its resource or its
-- permission. Attributes that go by the names of the time, the level and the logger do hide those
-- of the record, and so does one that is called in the place of what makes the message.
theorem format_shows_own (limits : Limits) (style : Style) (r : Record) (extra : LogSystem.Extra)
    (haccepted : LogSystem.attributesOf extra = .ok r.attributes) :
    ((∃ line, r.alone.format limits style = .ok line) →
      Value.field? r.attributes messageName = none → Writable limits style r.attributes →
        ∃ line, r.format limits style = .ok line) ∧
    ∀ line, r.format limits style = .ok line →
      ∃ d, r.Bears limits style r.attributes d ∧ d.ShownBy style.json line ∧
        ((∀ name ∈ hidingNames, Value.field? r.attributes name = none) →
          r.Bears limits style [] d) := by
  refine ⟨exists_format_of_alone, fun line hline => ?_⟩
  have hforeign := LogSystem.foreign_of_attributesOf haccepted
  obtain ⟨d, hbears, hshown⟩ := shownBy_of_format hforeign hline
  exact ⟨d, hbears, hshown, hbears.of_free⟩

-- A warning of an application.
def warned (attributes : List (Value × Datum)) : Record where
  logger := .text "app"
  level := .text "WARNING"
  template := .value (.text "hello")
  args := .ofValue (Template.argsOf [])
  seconds := .int 0
  milliseconds := .int 0
  raised := .given .none
  attributes := attributes

def plainStyle : Style := ⟨false, none⟩

def remarks : List (Value × Datum) :=
  [(.text "role", .value (.text "editor")), (.text "reason", .value (.int 3))]

theorem writable_remarks (style : Style) :
    Writable .standard style (warned remarks).attributes where
  previews := by
    have hreason : preview? .standard (.int 3) Preview.defaultLimit = .ok "3" :=
      eq_ok_of_toOption (by decide +kernel)
    exact List.forall_mem_cons.mpr ⟨⟨_, rfl⟩, List.forall_mem_singleton.mpr ⟨_, hreason⟩⟩
  keys _ := List.forall_mem_cons.mpr ⟨⟨rfl, rfl⟩, List.forall_mem_singleton.mpr ⟨rfl, rfl⟩⟩

theorem format_shows_own_warned :
    LogSystem.attributesOf (.entries remarks) = .ok (warned remarks).attributes ∧
      (∃ d, (warned remarks).Bears .standard plainStyle [] d ∧
        d.plain = "[1970-01-01 00:00:00,000] WARNING app role=editor : hello") ∧
      ∃ line object, (warned remarks).format .standard ⟨true, none⟩ = .ok line ∧
        (Value.map object).json = .ok line ∧
        Value.jsonUnder object "level" = [.text "WARNING"] ∧
        Value.jsonUnder object "role" = [.text "editor"] := by
  have haccepted : LogSystem.attributesOf (.entries remarks) = .ok (warned remarks).attributes :=
    rfl
  have hfree : ∀ name ∈ hidingNames, Value.field? (warned remarks).attributes name = none := by
    decide
  refine ⟨haccepted, ?_, ?_⟩
  · have hline : (warned remarks).format .standard plainStyle =
        .ok "[1970-01-01 00:00:00,000] WARNING app role=editor : hello" :=
      eq_ok_of_toOption (by decide +kernel)
    obtain ⟨-, hshows⟩ := format_shows_own .standard plainStyle _ _ haccepted
    obtain ⟨d, -, hshown, hown⟩ := hshows _ hline
    exact ⟨d, hown hfree, Eq.symm hshown⟩
  · have halone : (warned remarks).alone.format .standard ⟨true, none⟩ =
        .ok ("\x7b\"timestamp\": \"1970-01-01 00:00:00,000\", \"level\": \"WARNING\", " ++
          "\"logger\": \"app\", \"message\": \"hello\"\x7d") :=
      eq_ok_of_toOption (by decide +kernel)
    obtain ⟨hsucceeds, hshows⟩ := format_shows_own .standard ⟨true, none⟩ _ _ haccepted
    obtain ⟨line, hline⟩ := hsucceeds ⟨_, halone⟩ (by decide) (writable_remarks _)
    obtain ⟨d, -, hshown, hown⟩ := hshows line hline
    have hbears := hown hfree
    obtain ⟨object, hobject, hfills⟩ := hshown
    have hlevel : d.level = .text "WARNING" := hbears.level
    have hrole : Except.ok (some "editor") = Except.ok (d.context "role") :=
      hbears.context "role" (by decide)
    refine ⟨line, object, hline, hobject, ?_, ?_⟩
    · rw [hfills.level, hlevel]
    · rw [hfills.context "role" (by decide), ← Except.ok.inj hrole]
      rfl

-- Attributes that pass the warning off as a message of the library's own logger.
def disguise : List (Value × Datum) :=
  [(.text "level", .value (.text "DEBUG")), (.text "logger", .value (.text "contextrbac.rbac")),
    (.text "timestamp", .value (.text "yesterday"))]

-- A function that says something else.
def reassurance : Object where
  kind := "function"
  shown := .ok "<function>"
  literal := .ok "<function>"
  previewed := .ok "<function>"
  whole := none
  index := none
  real := none
  call := .ok (.text "all is well")

def undertone : List (Value × Datum) := [(.text messageName, .object reassurance)]

theorem plain_of_bears_warned {attributes : List (Value × Datum)} {d : Display}
    (h : (warned attributes).Bears .standard plainStyle [] d)
    (hcontext : ∀ name ∈ contextNames, Value.field? attributes name = none) :
    d.plain = "[1970-01-01 00:00:00,000] WARNING app : hello" := by
  have htime : (warned attributes).alone.timestamp .standard plainStyle =
      .ok "1970-01-01 00:00:00,000" :=
    eq_ok_of_toOption (x := (warned []).timestamp .standard plainStyle) (by decide +kernel)
  have hlevel : d.level = .text "WARNING" := h.level
  have hlogger : d.logger = .text "app" := h.logger
  have hmessage : Except.ok (.text "hello") = Except.ok d.message := h.message
  have hnone (name : String) (hname : name ∈ contextNames) : d.context name = none := by
    have hown := h.context name hname
    rw [context?, show (warned attributes).attributes = attributes from rfl,
      hcontext name hname] at hown
    exact (Except.ok.inj hown).symm
  obtain ⟨own, hown, hshown⟩ := h.timestamp
  obtain rfl := Except.ok.inj (htime.symm.trans hown)
  have htimestamp : d.timestamp = .text _ := hshown
  have hparts : d.contextParts = [] := by
    refine List.filterMap_eq_nil_iff.mpr fun name hname => ?_
    rw [hnone name hname]
    rfl
  rw [Display.plain, hparts, htimestamp, hlevel, hlogger, ← Except.ok.inj hmessage]
  rfl

theorem disguise_hides_own :
    LogSystem.attributesOf (.entries disguise) = .ok (warned disguise).attributes ∧
      (warned disguise).format .standard plainStyle =
        .ok "[yesterday] DEBUG contextrbac.rbac : hello" ∧
      (¬ ∃ d, (warned disguise).Bears .standard plainStyle [] d ∧
        d.ShownBy plainStyle.json "[yesterday] DEBUG contextrbac.rbac : hello") ∧
      LogSystem.attributesOf (.entries undertone) = .ok (warned undertone).attributes ∧
      (warned undertone).format .standard plainStyle =
        .ok "[1970-01-01 00:00:00,000] WARNING app : all is well" ∧
      ¬ ∃ d, (warned undertone).Bears .standard plainStyle [] d ∧
        d.ShownBy plainStyle.json "[1970-01-01 00:00:00,000] WARNING app : all is well" := by
  refine ⟨rfl, eq_ok_of_toOption (by decide +kernel), ?_, rfl,
    eq_ok_of_toOption (by decide +kernel), ?_⟩
  · rintro ⟨d, hbears, hshown⟩
    have hplain : "[yesterday] DEBUG contextrbac.rbac : hello" = d.plain := hshown
    rw [plain_of_bears_warned hbears (by decide)] at hplain
    exact absurd hplain (by decide)
  · rintro ⟨d, hbears, hshown⟩
    have hplain : "[1970-01-01 00:00:00,000] WARNING app : all is well" = d.plain := hshown
    rw [plain_of_bears_warned hbears (by decide)] at hplain
    exact absurd hplain (by decide)

end Record
end RoleAccess
