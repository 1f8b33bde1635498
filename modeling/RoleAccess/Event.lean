import RoleAccess.Explanation
import RoleAccess.Log.Level

namespace RoleAccess

-- What is worth a log record while a roster is kept and asked.
inductive Event where
  | created (roles : Nat)
  | merged (added changed : Nat)
  | replaced (roles : Nat)
  | cycle (start via : RoleId)
  | decided (granted : Bool) (role : RoleId) (resource permission : String)
  | explained (explanation : Explanation)
  deriving DecidableEq

-- A log record without a time: the logger it comes from, its text, and the context of the
-- decision it is about.
structure Row where
  logger : String
  level : Level
  message : String
  role : Option String
  resource : Option String
  permission : Option String
  deriving DecidableEq

namespace Event

def storeLogger : String := "contextrbac.permissions.store"

def lineageLogger : String := "contextrbac.permissions.inheritance"

def decisionLogger : String := "contextrbac.rbac"

def truthName (b : Bool) : String := if b then "True" else "False"

def logger : Event → String
  | created _ | merged _ _ | replaced _ => storeLogger
  | cycle _ _ => lineageLogger
  | decided _ _ _ _ | explained _ => decisionLogger

def message : Event → String
  | created roles => s!"Role store created with {roles} role(s)"
  | merged added changed => s!"Role store merge: {added} added, {changed} merged"
  | replaced roles => s!"Role store replaced with {roles} role(s)"
  | cycle start via =>
    s!"Inheritance cycle: '{start.shown}' reaches itself via '{via.shown}'"
  | decided granted _ _ _ => s!"can -> {truthName granted}"
  | explained e => s!"explain -> {truthName e.granted} ({e.reason.code})"

-- Every event is a record of the lowest level. Decisions carry what was asked.
def row (event : Event) : Row :=
  let bare : Row := ⟨event.logger, .debug, event.message, none, none, none⟩
  match event with
  | decided _ role resource permission =>
    { bare with role := some role.shown, resource := some resource, permission := some permission }
  | explained e =>
    { bare with
      role := some e.role.shown, resource := some e.resource, permission := some e.action }
  | _ => bare

end Event

end RoleAccess
