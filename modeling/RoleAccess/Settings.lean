import RoleAccess.Issue
import RoleAccess.Value.Naming

namespace RoleAccess

-- What a host can set: how much is logged and in which form, whether decisions are recorded,
-- and which logger of its own to set up along with the others.
structure Settings where
  level : Level
  json : Bool
  decisions : Bool
  service : Option String
  deriving DecidableEq

namespace Settings

def default : Settings := ⟨.info, false, false, none⟩

def fieldNames : List String := ["log_level", "log_json", "log_decisions", "service_name"]

-- Upper case, as far as the name of a level can tell: the Latin letters and the dotless i.
def upper (c : Char) : Char := if c = 'ı' then 'I' else c.toUpper

-- The name of a level is read in any case.
def readLevel? (name : String) : Option Level := Level.ofName? (name.map upper)

def checkLevel : Value → Checked Level
  | .level l => .ok l
  | .text s => match readLevel? s with
    | some l => .ok l
    | none => .fail (.unknownLevel s)
  | v => .fail (.notLevel v.kind)

def trueWords : List String := ["1", "on", "t", "true", "y", "yes"]

def falseWords : List String := ["0", "off", "f", "false", "n", "no"]

def lower (s : String) : String := s.map Char.toLower

def readTruth (s : String) : Checked Bool :=
  if lower s ∈ trueWords then .ok true
  else if lower s ∈ falseWords then .ok false
  else .fail .unclearTruthValue

def truthOfInt (n : Int) : Checked Bool :=
  if n = 0 then .ok false
  else if n = 1 then .ok true
  else .fail .unclearTruthValue

-- A truth value may be given in words or as a zero or a one. Numbers that are not whole or do
-- not fit in 64 bits are not even looked at, and neither is the least whole number that fits if
-- it comes with a point.
def checkTruth : Value → Checked Bool
  | .bool b => .ok b
  | .int n => if isWord n then truthOfInt n else .fail .notTruthValue
  | .float x => match x.whole? with
    | some n => if isWord n ∧ n ≠ -Int.pow 2 63 then truthOfInt n else .fail .notTruthValue
    | none => .fail .notTruthValue
  | .text s => readTruth s
  | .level l => readTruth l.name
  | .bytes bs => match Value.decodeBytes? bs with
    | some s => readTruth s
    | none => .fail .unclearTruthValue
  | _ => .fail .notTruthValue

-- Fields that nobody knows are refused, in the order in which they come.
def checkNames (entries : List (Value × Value)) : Checked Unit :=
  let unknown := entries.filter fun e => match e.1.text? with
    | some name => name ∉ fieldNames
    | none => true
  if unknown = [] then .ok ()
  else .error (unknown.map fun e => ⟨[.ofKey e.1], .unknownField⟩)

-- Reads settings given by name; what is not given has its default.
def ofEntries? (entries : List (Value × Value)) : Checked Settings :=
  let level := Value.checkField entries "log_level" checkLevel default.level
  let json := Value.checkField entries "log_json" checkTruth default.json
  let decisions := Value.checkField entries "log_decisions" checkTruth default.decisions
  let service :=
    Value.checkField entries "service_name" (Value.checkOption Value.checkText) default.service
  (level.both (json.both (decisions.both (service.both (checkNames entries))))).map
    fun (level, json, decisions, service, _) => ⟨level, json, decisions, service⟩

def callee : Callee := ⟨"RBACConfig", [], none⟩

-- Reads settings as a host hands them over, by names that have to be texts.
def ofArguments? (arguments : List (Value × Value)) : Except NamingError (Checked Settings) :=
  (callee.accept arguments).map fun _ => ofEntries? arguments

-- The words that switch something on in the environment.
def switchWords : List String := ["true", "1", "yes", "on"]

-- Reads the settings from the variables of an environment.
def ofEnvironment? (environment : Table String String) : Checked Settings :=
  let setting? name := environment.get? name
  let switch name := decide (lower ((setting? name).getD "false") ∈ switchWords)
  ofEntries?
    [(.text "log_level", .text ((setting? "RBAC_LOG_LEVEL").getD "INFO")),
      (.text "log_json", .bool (switch "RBAC_LOG_JSON")),
      (.text "log_decisions", .bool (switch "RBAC_LOG_DECISIONS")),
      (.text "service_name", .ofOption .text (setting? "RBAC_SERVICE_NAME"))]

end Settings

end RoleAccess
