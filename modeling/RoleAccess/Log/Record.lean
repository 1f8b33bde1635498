import RoleAccess.Fault
import RoleAccess.Log.DateFormat
import RoleAccess.Log.Preview
import RoleAccess.Log.Template

namespace RoleAccess

-- What was raised along with a record: an exception, as the text that shows it, or whatever a
-- caller has handed in for one.
inductive Raised where
  | exception (text : String)
  | given (v : Value)

-- One entry for the log. Callers may put any value in the place of what it is made of. Attributes
-- are what they have put on it besides, in the order in which they came.
structure Record where
  logger : Value
  level : Value
  template : Datum
  args : Template.Arguments
  seconds : Value
  milliseconds : Value
  raised : Raised
  attributes : List (Value × Datum)

-- How records are written.
structure Style where
  json : Bool
  dateFormat : Option String

-- Why a record cannot be written.
inductive RecordError where
  | moment (e : MomentError)
  | template (e : TemplateError)
  | shown (e : ShowError)
  | notCallable (kind : Kind)
  | call (e : HostError)
  | part (e : PartError)
  | noAttribute (kind : Kind) (name : String)
  | notName (kind : Kind)

namespace RecordError

def message : RecordError → String
  | moment e => e.message
  | template e => e.message
  | shown e => e.message
  | notCallable kind => s!"'{kind.name}' object is not callable"
  | call e => e.text
  | part e => e.message
  | noAttribute kind name => s!"'{kind.name}' object has no attribute '{name}'"
  | notName kind => s!"keys must be str, int, float, bool or None, not {kind.name}"

end RecordError

namespace Raised

-- What is shown of an exception when there is none.
def noException : String := "NoneType: None"

-- The text of what was raised, if anything was. A value handed in for an exception is taken for
-- three parts, the kind, the error and the trace, and there must be neither an error nor a trace.
def text? : Raised → Except RecordError (Option String)
  | exception text => .ok (some text)
  | given v => do
    if ¬ v.truthy then return none
    let trace ← (v.part (.int 2)).mapError RecordError.part
    let _ ← (v.part (.int 0)).mapError RecordError.part
    let error ← (v.part (.int 1)).mapError RecordError.part
    match trace.kind, error.kind with
    | .none, .none => return some noException
    | .none, kind => throw (.noAttribute kind "__suppress_context__")
    | kind, _ => throw (.noAttribute kind "tb_frame")

end Raised

namespace Record

-- The attributes every record has of its own.
def ownNames : List String :=
  ["name", "msg", "args", "created", "filename", "funcName", "levelname", "levelno", "lineno",
    "module", "msecs", "message", "pathname", "process", "processName", "relativeCreated",
    "thread", "threadName", "exc_info", "exc_text", "stack_info"]

-- The attributes that tell which decision a record is about.
def contextNames : List String := ["role", "resource", "permission"]

-- The attributes that are not written among the extra ones.
def reservedNames : List String := ownNames ++ "taskName" :: contextNames

-- Sets an attribute. Those of a record's own that are of no use for what is written are kept
-- with the others.
def set (r : Record) (name : String) (v : Value) : Record :=
  match name with
  | "name" => { r with logger := v }
  | "levelname" => { r with level := v }
  | "msg" => { r with template := .value v }
  | "args" => { r with args := .ofValue v }
  | "created" => { r with seconds := v }
  | "msecs" => { r with milliseconds := v }
  | "exc_info" => { r with raised := .given v }
  | name => { r with attributes := Value.insertEntry (.text name) (.value v) r.attributes }

def defaultDateFormat : String := "%Y-%m-%d %H:%M:%S"

-- The moment by the date format, or by the default one with the milliseconds behind it.
def timestamp (limits : Limits) (style : Style) (r : Record) : Except RecordError String := do
  let moment ← (Moment.ofValue? r.seconds).mapError RecordError.moment
  match style.dateFormat.filter (· ≠ "") with
  | some pattern => (moment.format pattern).mapError RecordError.moment
  | none =>
    let date ← (moment.format defaultDateFormat).mapError RecordError.moment
    let milliseconds ← (Datum.whole? 'd' (.value r.milliseconds)).mapError RecordError.template
    let written := Moment.padded 3 milliseconds
    let shown ← ((Value.int milliseconds).within limits written).mapError RecordError.shown
    return date ++ "," ++ shown

-- The function that makes the message. An attribute of that name hides it and is called in its
-- place, which no value can be.
def messageName : String := "getMessage"

def message (limits : Limits) (r : Record) : Except RecordError Value :=
  match Value.field? r.attributes messageName with
  | some (.value v) => .error (.notCallable v.kind)
  | some (.object o) => o.call.mapError .call
  | none => do
    let template ← (r.template.shown? limits).mapError RecordError.shown
    let text ← (Template.fill limits template r.args).mapError RecordError.template
    return .text text

-- What is previewed of a record is one line of bounded length.
def line? (limits : Limits) (d : Datum) : Except RecordError String :=
  (d.preview? limits Preview.defaultLimit).mapError .shown

-- An attribute that is there and not empty of meaning, as a line of text.
def context? (limits : Limits) (r : Record) (name : String) :
    Except RecordError (Option String) :=
  match Value.field? r.attributes name with
  | none | some (.value .none) => .ok none
  | some d => (line? limits d).map some

-- The context of the decision that a record is about, as far as there is one.
def context (limits : Limits) (r : Record) : Except RecordError (List (String × Option String)) :=
  contextNames.mapM fun name => (r.context? limits name).map fun line => (name, line)

-- The attributes that are written besides the context.
def extras (limits : Limits) (r : Record) : Except RecordError (List (Value × String)) :=
  (r.attributes.filter fun e => e.1.text?.all (· ∉ reservedNames)).mapM fun e =>
    (line? limits e.2).map fun line => (e.1, line)

-- What the texts and the message of a record come to, before they are put together.
structure Parts where
  timestamp : String
  message : Value
  context : List (String × Option String)
  exception : Option String
  extras : List (Value × String)

namespace Parts

def coreFields (p : Parts) (r : Record) : List (Value × Value) :=
  [(.text "timestamp", .text p.timestamp), (.text "level", r.level), (.text "logger", r.logger),
    (.text "message", p.message)]

def contextFields (p : Parts) : List (Value × Value) :=
  p.context.filterMap fun e => e.2.map fun s => (Value.text e.1, Value.text s)

def exceptionFields (p : Parts) : List (Value × Value) :=
  (p.exception.map fun s => (Value.text "exception", Value.text s)).toList

-- The fields that a record has without its extra attributes.
def ownFields (p : Parts) (r : Record) : List (Value × Value) :=
  p.coreFields r ++ p.contextFields ++ p.exceptionFields

def extraFields (p : Parts) : List (Value × Value) := p.extras.map fun e => (e.1, .text e.2)

-- All that is written of a record, by name. An extra attribute takes the place of a field of the
-- same name.
def fields (p : Parts) (r : Record) : List (Value × Value) :=
  p.extraFields.foldl (fun fields e => Value.insertEntry e.1 e.2 fields) (p.ownFields r)

end Parts

def parts (limits : Limits) (style : Style) (r : Record) : Except RecordError Parts := do
  let timestamp ← r.timestamp limits style
  let message ← r.message limits
  let context ← r.context limits
  let exception ← r.raised.text?
  let extras ← r.extras limits
  return { timestamp, message, context, exception, extras }

def jsonLine (limits : Limits) (fields : List (Value × Value)) : Except RecordError String := do
  let line ← (Value.map fields).json.mapError RecordError.notName
  ((Value.map fields).within limits line).mapError .shown

-- The fields that are shown without JSON.
def lineNames : List String := ["timestamp", "level", "logger"] ++ contextNames ++ ["message"]

-- Whether all of them can be shown.
def checkLine (limits : Limits) (fields : List (Value × Value)) : Except RecordError Unit :=
  lineNames.forM fun name =>
    (((Value.field? fields name).getD .none).within limits ()).mapError .shown

-- Time, level and logger, then the context and the message. Nothing else is shown.
def textLine (fields : List (Value × Value)) : String :=
  let get name := ((Value.field? fields name).getD .none).shown
  let context := contextNames.filterMap fun name =>
    (Value.field? fields name).map fun v => name ++ "=" ++ v.shown
  " ".intercalate
    (["[" ++ get "timestamp" ++ "]", get "level", get "logger"] ++ context ++
      [": " ++ get "message"])

-- The line for a record.
def format (limits : Limits) (style : Style) (r : Record) : Except RecordError String := do
  let parts ← r.parts limits style
  let fields := parts.fields r
  if style.json then jsonLine limits fields
  else do
    checkLine limits fields
    return textLine fields

end Record

-- An exception as it is shown: its kind and its text, if there is one. The text of a missing key
-- is the key as a literal. An error of this library is shown with its full name and always has a
-- text.
def exceptionText (kind text : String) : String :=
  match FaultClass.builtin.find? fun c => c.name = kind with
  | some c =>
    "contextrbac.exceptions." ++ kind ++ ": " ++ (if text = "" then c.message else text)
  | none =>
    if kind = "KeyError" then kind ++ ": " ++ Text.quoted text
    else if text = "" then kind
    else kind ++ ": " ++ text

end RoleAccess
