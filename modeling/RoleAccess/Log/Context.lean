import RoleAccess.Value.Identity
import RoleAccess.Value.Naming

namespace RoleAccess

-- Why the context of a decision cannot be put on a record.
inductive ContextError where
  | notSettable (kind : Kind)
  deriving DecidableEq

namespace ContextError

def message : ContextError → String
  | notSettable .list => "list indices must be integers or slices, not str"
  | notSettable kind => s!"'{kind.name}' object does not support item assignment"

end ContextError

-- The role and the resource that a logger puts on its records by itself.
structure Context where
  role : Option String
  resource : Option String
  deriving DecidableEq

namespace Context

-- Options are given by name.
abbrev Options := List (Value × Value)

-- Sets an entry, unless there is nothing to set.
def setEntry (name : String) (v : Value) (extra : Value) : Except ContextError Value :=
  match v with
  | .none => .ok extra
  | v =>
    match extra with
    | .map entries => .ok (.map (Value.insertEntry (.text name) v entries))
    | extra => .error (.notSettable extra.kind)

-- Moves role, resource and permission from the options to the extra attributes.
def process (c : Context) (options : Options) : Except ContextError Options := do
  let (role, options) := Value.take "role" (.ofOption .text c.role) options
  let (resource, options) := Value.take "resource" (.ofOption .text c.resource) options
  let (permission, options) := Value.take "permission" .none options
  let extra := (Value.field? options "extra").getD (.map [])
  let extra ← setEntry "role" role extra
  let extra ← setEntry "resource" resource extra
  let extra ← setEntry "permission" permission extra
  return Value.insertEntry (.text "extra") extra options

end Context

end RoleAccess
