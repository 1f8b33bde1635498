import RoleAccess.Issue
import RoleAccess.Roster

namespace RoleAccess

namespace Role

-- The tokens of each resource, without repetitions. If two keys are the same resource, the
-- place of the first and the tokens of the second count.
def checkPermissions : Value → Checked (Table String (List String))
  | .map entries =>
    (Checked.entries Value.checkText Value.checkTexts entries).map fun es =>
      (Table.ofList es).mapValues List.eraseDups
  | _ => .fail .notMap

-- The fields of a role definition are checked in a fixed order. Others are ignored.
def checkFields (entries : List (Value × Value)) : Checked Role :=
  let name := Value.checkField entries "name" (Value.checkOption Value.checkText) none
  let description :=
    Value.checkField entries "description" (Value.checkOption Value.checkText) none
  let permissions := Value.checkField entries "permissions" checkPermissions .empty
  let inherits := Value.checkField entries "inherits" (Value.checkOption Value.checkTexts) none
  (name.both (description.both (permissions.both inherits))).map
    fun (name, description, permissions, inherits) => ⟨name, description, permissions, inherits⟩

-- Reads a role definition. A role as it is stands for itself.
def ofValue? : Value → Checked Role
  | .role r => .ok r
  | .map entries => checkFields entries
  | _ => .fail .notRole

-- The definition that describes a role in full.
def toValue (r : Role) : Value := .map ((Value.ofRole r).map fun e => (.text e.1, e.2))

-- A role under an update, as it is built anew and checked once more.
def rebuild? (old new : Role) : Checked Role := ofValue? (old.overlay new).toValue

end Role

-- What a configuration says of the role under a key, not checked yet.
structure Definition where
  key : Value
  body : Value

-- Roles with their definitions, in order.
abbrev Definitions := List Definition

-- Why a role configuration is refused as a whole.
inductive ConfigurationError where
  | notMap (kind : Kind)
  | invalidRole (key : Value) (issues : List Issue)

namespace ConfigurationError

def message : ConfigurationError → String
  | notMap kind => s!"Role configuration must be a mapping, got {kind.name}"
  | invalidRole key issues =>
    s!"Invalid definition for role '{key.shown}': {issues.length} error(s)"

end ConfigurationError

namespace Definitions

-- A configuration is a map from roles to their definitions.
def ofValue? : Value → Except ConfigurationError Definitions
  | .map entries => .ok (entries.map fun e => ⟨e.1, e.2⟩)
  | v => .error (.notMap v.kind)

-- Checks the definitions in order, up to the first one that is not valid.
def check : Definitions → Except ConfigurationError (List Filed)
  | [] => .ok []
  | definition :: rest =>
    match Role.ofValue? definition.body with
    | .error issues => .error (.invalidRole definition.key issues)
    | .ok role =>
      match check rest with
      | .error e => .error e
      | .ok roles => .ok (⟨definition.key, role⟩ :: roles)

end Definitions

namespace Roster

-- A role that takes the place of the one held so far, whose key it keeps.
def supersede (held : Option Filed) (filed : Filed) : Filed :=
  ⟨held.elim filed.key (·.key), filed.role⟩

-- Files roles under what their keys say. Of equal keys the first is kept, with the last role.
def ofFiled (roles : List Filed) : Roster :=
  ⟨Table.empty.absorb supersede ⟨roles.map fun filed => (.ofKey filed.key, filed)⟩⟩

def ofDefinitions? (definitions : Definitions) : Except ConfigurationError Roster :=
  match definitions.check with
  | .error e => .error e
  | .ok roles => .ok (ofFiled roles)

-- Reads a whole configuration.
def ofValue? (v : Value) : Except ConfigurationError Roster :=
  match Definitions.ofValue? v with
  | .error e => .error e
  | .ok definitions => ofDefinitions? definitions

-- Reads what a roster is made from at first. Whatever counts as false stands for no roles.
def create? (v : Value) : Except ConfigurationError Roster :=
  if v.truthy then ofValue? v else .ok empty

-- How far an update has come: the roster as it is by now, and how many roles were added to it
-- and how many merged.
structure Progress where
  roster : Roster
  added : Nat
  merged : Nat

namespace Progress

-- A role that is not known is stored as it comes. For one that is known a new role is built,
-- which is checked before it takes the place of the other.
def take? (p : Progress) (id : RoleId) (filed : Filed) : Checked Progress :=
  match p.roster.roles.get? id with
  | none => .ok ⟨⟨p.roster.roles.put id filed⟩, p.added + 1, p.merged⟩
  | some held =>
    (Role.rebuild? held.role filed.role).map fun role =>
      ⟨⟨p.roster.roles.put id ⟨held.key, role⟩⟩, p.added, p.merged + 1⟩

-- Takes one role after the other in. At the first one that fails the roster stays as it is by
-- then.
def takeAll (p : Progress) : List (RoleId × Filed) → Checked Unit × Progress
  | [] => (.ok (), p)
  | e :: es =>
    match p.take? e.1 e.2 with
    | .error issues => (.error issues, p)
    | .ok next => next.takeAll es

end Progress

-- The update of a roster as a run over the roles that come in.
def mergeInPlace (roster update : Roster) : Checked Unit × Progress :=
  Progress.takeAll ⟨roster, 0, 0⟩ update.roles.entries

end Roster

end RoleAccess
