import RoleAccess.Proofs.Log.Parts

namespace RoleAccess

-- What stands under a name in a JSON object, as often as it is there.
def Value.jsonUnder (entries : List (Value × Value)) (name : String) : List Value :=
  (entries.filter fun e => e.1.jsonName? = some name).map (·.2)

theorem Value.jsonUnder_eq_under {name : String} (h : PlainName name)
    (entries : List (Value × Value)) : jsonUnder entries name = under entries name := by
  unfold jsonUnder under
  simp only [jsonName?_eq_some_iff h]

-- What there is to be seen of a record, whatever else is written along with it.
structure Display where
  timestamp : Value
  level : Value
  logger : Value
  message : Value
  context : String → Option String

namespace Display

-- Each of the values is found exactly once under its name, and nothing under the name of a context
-- that is missing.
structure Fills (d : Display) (found : String → List Value) : Prop where
  timestamp : found "timestamp" = [d.timestamp]
  level : found "level" = [d.level]
  logger : found "logger" = [d.logger]
  message : found "message" = [d.message]
  context : ∀ name ∈ Record.contextNames, found name = ((d.context name).map .text).toList

def contextParts (d : Display) : List String :=
  Record.contextNames.filterMap fun name => (d.context name).map fun s => name ++ "=" ++ s

-- The line without JSON.
def plain (d : Display) : String :=
  " ".intercalate (["[" ++ d.timestamp.shown ++ "]", d.level.shown, d.logger.shown] ++
    d.contextParts ++ [": " ++ d.message.shown])

-- The line is a JSON object that has the values, or is written from them word by word.
def ShownBy (d : Display) (json : Bool) (line : String) : Prop :=
  if json then
    ∃ object, (Value.map object).json = .ok line ∧ d.Fills (Value.jsonUnder object)
  else line = d.plain

-- The names at which a display is read.
def names : List String := ["timestamp", "level", "logger", "message"] ++ Record.contextNames

theorem plainName_of_mem_names : ∀ name ∈ names, Value.PlainName name := by
  have hplain : ∀ name ∈ names,
      name ∉ ["null", "true", "false", "NaN", "Infinity", "-Infinity"] ∧
        ¬ Binary64.AllNumeric name := by decide
  exact fun name h => ⟨(hplain name h).1, (hplain name h).2⟩

variable {d : Display} {fields : List (Value × Value)}

theorem Fills.json (h : d.Fills (Value.under fields)) : d.Fills (Value.jsonUnder fields) := by
  have hread (name : String) (hname : name ∈ names) :
      Value.jsonUnder fields name = Value.under fields name :=
    Value.jsonUnder_eq_under (plainName_of_mem_names name hname) fields
  exact {
    timestamp := (hread _ (by decide)).trans h.timestamp
    level := (hread _ (by decide)).trans h.level
    logger := (hread _ (by decide)).trans h.logger
    message := (hread _ (by decide)).trans h.message
    context := fun name hname =>
      (hread name (List.mem_append_right _ hname)).trans (h.context name hname) }

theorem Fills.textLine (h : d.Fills (Value.under fields)) : Record.textLine fields = d.plain := by
  have hcontext : (Record.contextNames.filterMap fun name =>
      (Value.field? fields name).map fun v => name ++ "=" ++ v.shown) = d.contextParts := by
    refine List.filterMap_congr fun name hname => ?_
    rw [Value.field?_eq_head?, h.context name hname]
    cases d.context name <;> rfl
  rw [Record.textLine, plain, ← hcontext]
  simp only [Value.field?_eq_head?, h.timestamp, h.level, h.logger, h.message, List.head?_cons,
    Option.getD_some]

end Display

namespace Record

-- The record without what callers have put on it.
def alone (r : Record) : Record := { r with attributes := [] }

-- What is shown in the place of a value: an attribute of its name as the line that previews it, if
-- there is one.
def InPlaceOf (limits : Limits) (attributes : List (Value × Datum)) (name : String)
    (own shown : Value) : Prop :=
  match Value.field? attributes name with
  | none => shown = own
  | some d => ∃ line, d.preview? limits Preview.defaultLimit = .ok line ∧ shown = .text line

-- The message is made by the function that makes it, or by the attribute that hides the function.
def Says (limits : Limits) (attributes : List (Value × Datum)) (r : Record) (message : Value) :
    Prop :=
  match Value.field? attributes messageName with
  | none => r.alone.message limits = .ok message
  | some d => ∃ o, d = .object o ∧ o.call = .ok message

-- What is displayed is what the record has of its own, except where one of the attributes in front
-- hides it. The context is always the record's.
structure Bears (limits : Limits) (style : Style) (r : Record) (front : List (Value × Datum))
    (d : Display) : Prop where
  timestamp : ∃ own, r.alone.timestamp limits style = .ok own ∧
    InPlaceOf limits front "timestamp" (.text own) d.timestamp
  level : InPlaceOf limits front "level" r.level d.level
  logger : InPlaceOf limits front "logger" r.logger d.logger
  message : Says limits front r d.message
  context : ∀ name ∈ contextNames, r.context? limits name = .ok (d.context name)

-- The names by which an attribute gets in front of what a record has of its own.
def hidingNames : List String := ["timestamp", "level", "logger", messageName]

variable {limits : Limits} {style : Style} {r : Record} {p : Parts} {name : String}

theorem inPlaceOf_inFront (hextras : r.extras limits = .ok p.extras)
    (hreserved : name ∉ reservedNames) (own : Value) :
    InPlaceOf limits r.attributes name own (inFront limits r.attributes name own) := by
  unfold InPlaceOf inFront
  cases hd : Value.field? r.attributes name with
  | none => rfl
  | some d =>
      obtain ⟨line, hline⟩ := line?_ok_of_field? hextras hreserved hd
      refine ⟨line, mapError_ok_iff.mp hline, ?_⟩
      rw [Option.elim_some, previewOf, hline]
      rfl

theorem says_of_message {message : Value} (h : r.message limits = .ok message) :
    Says limits r.attributes r message := by
  unfold Says
  unfold Record.message at h
  cases hd : Value.field? r.attributes messageName with
  | none =>
      rw [hd] at h
      exact h
  | some d =>
      rw [hd] at h
      cases d with
      | value v => cases h
      | object o => exact ⟨o, rfl, mapError_ok_iff.mp h⟩

theorem context?_eq_contextLine (hcontext : r.context limits = .ok p.context)
    (hname : name ∈ contextNames) :
    r.context? limits name = .ok (r.contextLine limits name) := by
  obtain ⟨line, hline⟩ := (context_ok_iff.mp hcontext).1 name hname
  rw [contextLine, hline]
  rfl

-- Attributes get in front of the time, the level and the logger, and of nothing else that is
-- written under a name.
theorem exists_bears (hforeign : LogSystem.Foreign r.attributes)
    (hparts : r.parts limits style = .ok p) :
    ∃ d, r.Bears limits style r.attributes d ∧ d.Fills (Value.under (p.fields r)) := by
  obtain ⟨htimestamp, hmessage, hcontext, -, hextras⟩ := parts_ok_iff.mp hparts
  have hfree {name : String} {own : Value} (hname : name ≠ "exception")
      (hreserved : name ∉ reservedNames)
      (hown : Value.under (p.coreFields r) name ++
        (if name ∈ contextNames then ((r.contextLine limits name).map Value.text).toList else []) =
          [own]) :=
    Parts.under_fields_of_not_reserved hextras hforeign hreserved
      ((Parts.under_ownFields hcontext hname).trans hown)
  have hsaid : Value.under (p.fields r) "message" = [p.message] := by
    have hown : Value.under (p.ownFields r) "message" = [p.message] :=
      Parts.under_ownFields hcontext (by decide)
    rw [Parts.under_fields_of_reserved hextras (by decide) (by rw [hown]; exact Nat.le_refl 1),
      hown]
  have habout (name : String) (hname : name ∈ contextNames) :
      Value.under (p.fields r) name = ((r.contextLine limits name).map .text).toList := by
    have hreserved : ∀ name ∈ contextNames, name ∈ reservedNames := by decide
    have hown := Parts.under_ownFields_of_context (r := r) hcontext hname
    rw [Parts.under_fields_of_reserved hextras (hreserved name hname), hown]
    rw [hown]
    exact Option.length_toList_le
  refine ⟨⟨inFront limits r.attributes "timestamp" (.text p.timestamp),
    inFront limits r.attributes "level" r.level, inFront limits r.attributes "logger" r.logger,
    p.message, r.contextLine limits⟩, ?_, ?_⟩
  · exact {
      timestamp := ⟨p.timestamp, htimestamp, inPlaceOf_inFront hextras (by decide) _⟩
      level := inPlaceOf_inFront hextras (by decide) _
      logger := inPlaceOf_inFront hextras (by decide) _
      message := says_of_message hmessage
      context := fun name => context?_eq_contextLine hcontext }
  · exact {
      timestamp := hfree (by decide) (by decide) rfl
      level := hfree (by decide) (by decide) rfl
      logger := hfree (by decide) (by decide) rfl
      message := hsaid
      context := habout }

-- Where nothing goes by one of the names in question, nothing is hidden.
theorem Bears.of_free {d : Display} (h : r.Bears limits style r.attributes d)
    (hfree : ∀ name ∈ hidingNames, Value.field? r.attributes name = none) :
    r.Bears limits style [] d := by
  have hempty (name : String) (hname : name ∈ hidingNames) :
      Value.field? r.attributes name = Value.field? ([] : List (Value × Datum)) name :=
    hfree name hname
  obtain ⟨⟨own, htimestamp, hshown⟩, hlevel, hlogger, hmessage, hcontext⟩ := h
  unfold InPlaceOf at hshown hlevel hlogger
  unfold Says at hmessage
  rw [hempty _ (by decide)] at hshown hlevel hlogger hmessage
  exact ⟨⟨own, htimestamp, hshown⟩, hlevel, hlogger, hmessage, hcontext⟩

end Record

end RoleAccess
