import RoleAccess.Event
import RoleAccess.Log.System

namespace RoleAccess

-- What a decision is about is handed over to a logger by name.
def Context.Options.about (role resource permission : String) : Context.Options :=
  [(.text "role", .text role), (.text "resource", .text resource),
    (.text "permission", .text permission)]

-- What a logger is called with: a template, the arguments for its places, and the options.
structure LogCall where
  template : String
  args : List Value
  options : Context.Options

-- The record that a logger without a context of its own makes of a call.
def LogCall.record? (call : LogCall) (logger : String) (level : Level) :
    Except LogError Record := do
  (LogSystem.caller.accept call.options).mapError LogError.naming
  let options ← (Context.process ⟨none, none⟩ call.options).mapError LogError.context
  LogSystem.recordOf (.text logger) level call.template call.args options

namespace Template

theorem Place.pad_of_no_width {p : Place} (h : p.width = none) (body : List Char) :
    p.pad false [] [] body = body := by
  simp [pad, h]

namespace Filling

variable (limits : Limits) (named? : Option (String → Except TemplateError Datum))

-- Text without a place is written as it is.
theorem foldlM_plain {cs : List Char} (h : '%' ∉ cs) (rest written : List Char) (position : Nat)
    (left : List Datum) :
    (cs ++ rest).foldlM (step limits named?) ⟨written, position, left, .plain⟩ =
      rest.foldlM (step limits named?) ⟨written ++ cs, position + cs.length, left, .plain⟩ := by
  induction cs generalizing written position with
  | nil =>
      rw [List.append_nil]
      rfl
  | cons c cs ih =>
      obtain ⟨hc, hcs⟩ := List.ne_and_not_mem_of_not_mem_cons h
      have hstep : step limits named? ⟨written, position, left, .plain⟩ c =
          .ok ⟨written ++ [c], position + 1, left, .plain⟩ := by
        simp only [step, read, if_neg (Ne.symm hc)]
        rfl
      rw [List.cons_append, List.foldlM_cons, hstep]
      refine (ih hcs _ _).trans ?_
      rw [List.append_assoc, Nat.add_assoc, Nat.add_comm 1]
      rfl

-- In a place for a text the next argument is written as it is shown.
theorem foldlM_place {d : Datum} {s : String} (h : d.shown? limits = .ok s)
    (rest written : List Char) (position : Nat) (left : List Datum) :
    ('%' :: 's' :: rest).foldlM (step limits named?) ⟨written, position, d :: left, .plain⟩ =
      rest.foldlM (step limits named?) ⟨written ++ s.toList, position + 2, left, .plain⟩ := by
  have hplace : Place.write limits .empty 's' (position + 1) d = .ok s.toList := by
    rw [Place.write, h]
    exact congrArg Except.ok (Place.pad_of_no_width rfl _)
  have hwritten : write limits ⟨written, position + 1, d :: left, .opening⟩ .empty 's' =
      .ok ⟨written ++ s.toList, position + 1, left, .plain⟩ := by
    simp only [write, next, hplace, bind, Except.bind]
    rfl
  have hopened : step limits named? ⟨written, position, d :: left, .plain⟩ '%' =
      .ok ⟨written, position + 1, d :: left, .opening⟩ := rfl
  have hread : read limits named? ⟨written, position + 1, d :: left, .opening⟩ 's' =
      write limits ⟨written, position + 1, d :: left, .opening⟩ .empty 's' := by
    cases named? <;> rfl
  have hplaced : step limits named? ⟨written, position + 1, d :: left, .opening⟩ 's' =
      .ok ⟨written ++ s.toList, position + 2, left, .plain⟩ := by
    rw [step, hread, hwritten]
    rfl
  simp only [List.foldlM_cons, hopened, bind, Except.bind, hplaced]

end Filling

theorem fill_decided (limits : Limits) (granted : Bool) :
    fill limits "can -> %s" (.ofValue (argsOf [.bool granted])) =
      .ok s!"can -> {Event.truthName granted}" := by
  cases granted <;> rfl

theorem fill_explained (limits : Limits) (granted : Bool) (code : String) :
    fill limits "explain -> %s (%s)" (.ofValue (argsOf [.bool granted, .text code])) =
      .ok s!"explain -> {Event.truthName granted} ({code})" := by
  have htemplate : "explain -> %s (%s)".toList =
      "explain -> ".toList ++ '%' :: 's' :: (" (".toList ++ '%' :: 's' :: (")".toList ++ [])) :=
    rfl
  have hargs : Arguments.ofValue (argsOf [.bool granted, .text code]) =
      ⟨true, [.value (.bool granted), .value (.text code)], none⟩ := rfl
  have hgranted :
      (Datum.value (.bool granted)).shown? limits = .ok (Event.truthName granted) := by
    cases granted <;> rfl
  have hcode : (Datum.value (.text code)).shown? limits = .ok code := rfl
  rw [fill, hargs, htemplate]
  simp only [not_true, if_false]
  rw [Filling.foldlM_plain _ _ (by decide), Filling.foldlM_place _ _ hgranted,
    Filling.foldlM_plain _ _ (by decide), Filling.foldlM_place _ _ hcode,
    Filling.foldlM_plain _ _ (by decide)]
  simp only [List.foldlM_nil, pure, Except.pure, bind, Except.bind, Filling.finish]
  apply congrArg Except.ok
  apply String.toList_inj.mp
  simp [ToString.toString]

end Template

namespace Record

-- The record bears what the row says.
structure Shows (r : Record) (row : Row) : Prop where
  logger : r.logger = .text row.logger
  level : r.level = .text row.level.name
  message : ∀ limits, r.message limits = .ok (.text row.message)
  role : Value.field? r.attributes "role" = row.role.map fun s => .value (.text s)
  resource : Value.field? r.attributes "resource" = row.resource.map fun s => .value (.text s)
  permission : Value.field? r.attributes "permission" = row.permission.map fun s => .value (.text s)

theorem message_of_fill {limits : Limits} {r : Record} {template message : String}
    (hhidden : Value.field? r.attributes messageName = none)
    (htemplate : r.template = .value (.text template))
    (hfill : Template.fill limits template r.args = .ok message) :
    r.message limits = .ok (.text message) := by
  have hshown : ((Datum.value (.text template)).shown? limits).mapError RecordError.shown =
      .ok template := rfl
  have hmapped : (Template.fill limits template r.args).mapError RecordError.template =
      .ok message := by
    rw [hfill]
    rfl
  unfold Record.message
  rw [hhidden, htemplate, hshown]
  simp only [bind, Except.bind, hmapped, pure, Except.pure]

end Record

theorem LogCall.record?_about (template : String) (args : List Value)
    (role resource permission logger : String) (level : Level) :
    ∃ r,
      LogCall.record? ⟨template, args, .about role resource permission⟩ logger level = .ok r ∧
      r.logger = .text logger ∧ r.level = .text level.name ∧
      r.template = .value (.text template) ∧ r.args = .ofValue (Template.argsOf args) ∧
      r.attributes = (Context.Options.about role resource permission).map
        fun e => (e.1, .value e.2) :=
  ⟨_, rfl, rfl, rfl, rfl, rfl, rfl⟩

namespace Event

-- The call by which a decision gets into the log.
def call? : Event → Option LogCall
  | decided granted role resource permission =>
    some ⟨"can -> %s", [.bool granted], .about role.shown resource permission⟩
  | explained e =>
    some ⟨"explain -> %s (%s)", [.bool e.granted, .text e.reason.code],
      .about e.role.shown e.resource e.action⟩
  | _ => none

-- The call of the event is accepted, and leads to a record that shows the event's row.
def Recordable (event : Event) : Prop :=
  ∃ call record, event.call? = some call ∧
    call.record? event.row.logger event.row.level = .ok record ∧ record.Shows event.row

theorem recordable_of_call {event : Event} {template : String} {args : List Value}
    {role resource permission : String}
    (hcall : event.call? = some ⟨template, args, .about role resource permission⟩)
    (hfill : ∀ limits, Template.fill limits template (.ofValue (Template.argsOf args)) =
      .ok event.row.message)
    (hrole : event.row.role = some role) (hresource : event.row.resource = some resource)
    (hpermission : event.row.permission = some permission) : event.Recordable := by
  obtain ⟨record, hrecord, hlogger, hlevel, htemplate, hargs, hattributes⟩ :=
    LogCall.record?_about template args role resource permission event.row.logger event.row.level
  have hhidden : Value.field? record.attributes Record.messageName = none := by
    rw [hattributes]
    rfl
  have hmessage (limits : Limits) : record.message limits = .ok (.text event.row.message) :=
    Record.message_of_fill hhidden htemplate (by rw [hargs]; exact hfill limits)
  refine ⟨_, record, hcall, hrecord, hlogger, hlevel, hmessage, ?_, ?_, ?_⟩
  · rw [hattributes, hrole]
    rfl
  · rw [hattributes, hresource]
    rfl
  · rw [hattributes, hpermission]
    rfl

theorem lineageLogger_ne : lineageLogger ≠ decisionLogger := by decide

theorem storeLogger_ne : storeLogger ≠ decisionLogger := by decide

-- No decision is lost in logging, whatever its texts are.
theorem recordable_of_logger {event : Event} (h : event.logger = decisionLogger) :
    event.Recordable := by
  cases event with
  | decided granted role resource permission =>
      exact recordable_of_call rfl (fun limits => Template.fill_decided limits granted) rfl rfl rfl
  | explained e =>
      exact recordable_of_call rfl
        (fun limits => Template.fill_explained limits e.granted e.reason.code) rfl rfl rfl
  | cycle start via => exact absurd h lineageLogger_ne
  | created _ | merged _ _ | replaced _ => exact absurd h storeLogger_ne

end Event

end RoleAccess
