import RoleAccess.Log.Context
import RoleAccess.Log.Hierarchy
import RoleAccess.Log.Record
import RoleAccess.Settings

namespace RoleAccess

-- Settings as a host may have left them after setting fields by hand, unchecked.
structure LooseSettings where
  level : Value
  json : Value
  decisions : Value
  service : Value

-- Where records go: everything of some level and above, in one form.
structure Handler where
  level : Nat
  json : Value

-- The loggers of a process, and where the root logger sends what comes up to it.
structure LogSystem where
  loggers : Hierarchy
  handlers : List Handler

-- Why logging cannot be set up or a record not be made.
inductive LogError where
  | noSuchField (name : String)
  | readOnly (name : String)
  | notHashable (kind : Kind)
  | loggerName
  | naming (e : NamingError)
  | context (e : ContextError)
  | notDepth (kind : Kind)
  | notIterable (kind : Kind)
  | ownAttribute (key : Value)
  | part (e : PartError)

namespace LogError

def message : LogError → String
  | noSuchField name => "\"RBACConfig\" object has no field \"" ++ name ++ "\""
  | readOnly name => s!"property '{name}' of 'RBACConfig' object has no setter"
  | notHashable kind => s!"unhashable type: '{kind.name}'"
  | loggerName => "A logger name must be a string"
  | naming e => e.message
  | context e => e.message
  | notDepth kind => s!"'>' not supported between instances of '{kind.name}' and 'int'"
  | notIterable kind => s!"'{kind.name}' object is not iterable"
  | ownAttribute key => Text.quoted ("Attempt to overwrite " ++ key.literal ++ " in LogRecord")
  | part e => e.message

end LogError

namespace LooseSettings

def ofSettings (s : Settings) : LooseSettings :=
  ⟨.text s.level.name, .bool s.json, .bool s.decisions, .ofOption .text s.service⟩

-- What settings can be asked for besides their fields, and cannot be told.
def readOnlyNames : List String := ["model_extra", "model_fields_set"]

-- Sets a field. What begins with an underscore is nobody's and may be set to anything.
def assign (s : LooseSettings) (name : String) (v : Value) : Except LogError LooseSettings :=
  match name with
  | "log_level" => .ok { s with level := v }
  | "log_json" => .ok { s with json := v }
  | "log_decisions" => .ok { s with decisions := v }
  | "service_name" => .ok { s with service := v }
  | name =>
    if name.toList.head? = some '_' then .ok s
    else if name ∈ readOnlyNames then .error (.readOnly name)
    else .error (.noSuchField name)

-- Assigns one field after the other, up to the first one that does not exist.
def assignAll (s : LooseSettings) : List (String × Value) → Except LogError LooseSettings
  | [] => .ok s
  | (name, v) :: rest =>
    match s.assign name v with
    | .error e => .error e
    | .ok s => s.assignAll rest

end LooseSettings

namespace Handler

-- What a handler writes for a record. A record whose message cannot be made is lost.
def write (h : Handler) (level : Level) (r : Record) : String :=
  if level.number < h.level then ""
  else
    match r.format .standard ⟨h.json.truthy, none⟩ with
    | .ok line => line ++ "\n"
    | .error _ => ""

end Handler

namespace LogSystem

-- Before anything is set up only warnings and what is graver get through.
def initial : LogSystem := ⟨.ofRootLevel Level.warning.number, []⟩

def setLevel (s : LogSystem) (key : String) (name : Value) (level : Nat) : LogSystem :=
  { s with loggers := s.loggers.setLevel key name level }

-- The number of a level that is named. One that nobody knows counts as the middle one.
def levelNumber (v : Value) : Except LogError Nat :=
  match v.unhashable? with
  | some kind => .error (.notHashable kind)
  | none => .ok (((v.text?.bind Level.ofName?).getD .info).number)

-- The logger of this library.
def libraryLogger : String := "contextrbac"

-- Sets the library's logger and the root logger up with one handler, which takes the place of
-- all others, and the service's logger if there is one. `json` overrides the settings.
def setup (s : LogSystem) (settings : LooseSettings) (json : Value) :
    Except LogError Unit × LogSystem :=
  match levelNumber settings.level with
  | .error e => (.error e, s)
  | .ok level =>
    let form := match json with
      | .none => settings.json
      | json => json
    let root := s.setLevel Hierarchy.rootName (.text Hierarchy.rootName) level
    let ready := { root.setLevel libraryLogger (.text libraryLogger) level with
      handlers := [⟨level, form⟩] }
    if settings.service.truthy then
      match settings.service.text? with
      | some key => (.ok (), ready.setLevel key settings.service level)
      | none => (.error .loggerName, ready)
    else (.ok (), ready)

-- Sets logging up with checked settings and what is assigned to them afterwards.
def setupWith (s : LogSystem) (settings : Settings) (assigned : List (String × Value))
    (json : Value) : Except LogError Unit × LogSystem :=
  match (LooseSettings.ofSettings settings).assignAll assigned with
  | .error e => (.error e, s)
  | .ok loose => s.setup loose json

-- The own levels of the library's logger and of some others, which are asked for.
def ownLevels (s : LogSystem) (names : List String) : List (String × Nat) × LogSystem :=
  let names := libraryLogger :: names
  let loggers := names.foldl (fun h name => h.ask name (.text name)) s.loggers
  (names.map fun name => (name, loggers.ownLevel name), { s with loggers })

-- A logger is called with a level and a message, and then with the arguments of the message as
-- well. From there on the options are the only ones that it takes.
def caller : Callee := ⟨"LoggerAdapter.log", ["self", "level", "msg"], none⟩

def recorder : Callee :=
  ⟨"Logger._log", ["self", "level", "msg", "args"],
    some ["exc_info", "stack_info", "stacklevel", "extra"]⟩

-- What is to be put on a record: a value, or a map with things of the host's own in it.
inductive Extra where
  | value (v : Value)
  | entries (es : List (Value × Datum))

namespace Extra

-- The keys that are gone through.
def keys? : Extra → Except LogError (List Value)
  | value .none => .ok []
  | value v => v.elements?.elim (.error (.notIterable v.kind)) .ok
  | entries es => .ok (es.map (·.1))

def part (extra : Extra) (key : Value) : Except PartError Datum :=
  match extra with
  | value v => (v.part key).map .value
  | entries es =>
    match es.find? fun e => e.1.equal key with
    | some e => .ok e.2
    | none => .error (.noEntry key)

end Extra

-- Puts one more attribute on a record. Those a record has already cannot be given.
def addAttribute (extra : Extra) (attributes : List (Value × Datum)) (key : Value) :
    Except LogError (List (Value × Datum)) :=
  match key.unhashable? with
  | some kind => .error (.notHashable kind)
  | none =>
    if key.text?.any (· ∈ "asctime" :: Record.ownNames) ∨ attributes.any (·.1.equal key) then
      .error (.ownAttribute key)
    else
      match extra.part key with
      | .ok v => .ok (attributes ++ [(key, v)])
      | .error e => .error (.part e)

-- The attributes that come with a record: what the extra ones go through, with its parts.
def attributesOf (extra : Extra) : Except LogError (List (Value × Datum)) := do
  (← extra.keys?).foldlM (addAttribute extra) []

-- The depth at which the place of a call is looked for has to be a number.
def checkDepth (options : Context.Options) : Except LogError Unit :=
  match Value.field? options "stacklevel" with
  | none | some (.bool _) | some (.int _) | some (.float _) => .ok ()
  | some v => .error (.notDepth v.kind)

-- What is handed in for an exception stands as it is if it is a tuple. Anything else that counts
-- as true asks for the exception that is being handled, and there is none.
def raisedOf (v : Value) : Raised :=
  match v with
  | .tuple items => .given (.tuple items)
  | v => if v.truthy then .given (.tuple [.none, .none, .none]) else .given .none

-- Makes the record of an event at the beginning of time.
def recordOf (logger : Value) (level : Level) (template : String) (args : List Value)
    (options : Context.Options) : Except LogError Record := do
  (recorder.accept options).mapError LogError.naming
  checkDepth options
  let attributes ← attributesOf (.value ((Value.field? options "extra").getD .none))
  return {
    logger
    level := .text level.name
    template := .value (.text template)
    args := .ofValue (Template.argsOf args)
    seconds := .int 0
    milliseconds := .int 0
    raised := raisedOf ((Value.field? options "exc_info").getD .none)
    attributes }

-- As long as there is no handler, the bare messages of warnings and graver records are shown,
-- each one followed by what was raised on a line of its own.
def lastResort (level : Level) (r : Record) : String :=
  if level.number < Level.warning.number then ""
  else
    let texts : Except RecordError (String × Option String) := do
      let message ← r.message .standard
      let shown ← (message.within .standard message.shown).mapError RecordError.shown
      return (shown, ← r.raised.text?)
    match texts with
    | .ok (message, none) => message ++ "\n"
    | .ok (message, some raised) =>
      message ++ (if message.toList.getLast? = some '\n' then "" else "\n") ++ raised ++ "\n"
    | .error _ => ""

-- Makes the record of an event that is let through. Gives what is written.
def emit (s : LogSystem) (context : Context) (logger : Value) (level : Level)
    (template : String) (args : List Value) (options : Context.Options) :
    Except LogError String := do
  let options ← (context.process options).mapError LogError.context
  let record ← recordOf logger level template args options
  if s.handlers.isEmpty then return lastResort level record
  return String.join (s.handlers.map fun h => h.write level record)

-- Logs an event through a logger that puts its context on the records.
def log (s : LogSystem) (context : Context) (logger : String) (level : Level)
    (template : String) (args : List Value) (options : Context.Options) :
    Except LogError String × LogSystem :=
  let loggers := s.loggers.ask logger (.text logger)
  match caller.accept options with
  | .error e => (.error (.naming e), { s with loggers })
  | .ok () =>
    let (enabled, loggers) := loggers.letsThrough logger level
    let written :=
      if enabled then s.emit context (loggers.nameOf logger) level template args options
      else .ok ""
    (written, { s with loggers })

end LogSystem

end RoleAccess
