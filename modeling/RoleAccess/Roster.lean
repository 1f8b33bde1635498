import RoleAccess.Roster.Key

namespace RoleAccess

-- A role together with the key under which it was first configured.
structure Filed where
  key : Value
  role : Role

-- All roles that are known, in the order in which they were configured.
structure Roster where
  roles : Table RoleId Filed

namespace Roster

def empty : Roster := ⟨.empty⟩

def ids (roster : Roster) : List RoleId := roster.roles.keys

-- The keys of all roles, as they are listed.
def keys (roster : Roster) : List Value := roster.roles.values.map (·.key)

def size (roster : Roster) : Nat := roster.roles.size

def get? (roster : Roster) (id : RoleId) : Option Role := (roster.roles.get? id).map (·.role)

def contains (roster : Roster) (id : RoleId) : Bool := roster.roles.contains id

-- The display name, which is the role's own name where none is configured.
def displayName (roster : Roster) (id : RoleId) : String :=
  ((roster.get? id).bind (·.name)).getD id.shown

def description (roster : Roster) (id : RoleId) : Option String :=
  (roster.get? id).bind (·.description)

def parents (roster : Roster) (id : RoleId) : List RoleId :=
  (roster.get? id).elim [] (·.parents)

def permissions (roster : Roster) (id : RoleId) : Table String (List String) :=
  (roster.get? id).elim .empty (·.permissions)

def resources (roster : Roster) (id : RoleId) : List String := (roster.permissions id).keys

-- The tokens given on a resource by the role itself, without its parents'.
def directTokens (roster : Roster) (id : RoleId) (resource : String) : List String :=
  (roster.get? id).elim [] (·.tokens resource)

-- A role that is not yet known is stored as it comes, a known one is merged with its update and
-- keeps its key.
def adopt (held : Option Filed) (update : Filed) : Filed :=
  held.elim update fun filed => { filed with role := filed.role.merge update.role }

-- Lays a validated configuration over the roster.
def merge (roster update : Roster) : Roster := ⟨roster.roles.absorb adopt update.roles⟩

-- How many roles of an update the roster does not know.
def countNew (roster update : Roster) : Nat :=
  update.ids.countP fun id => !roster.contains id

-- Every role is filed as its key says, and no role, no resource of a role and no token on a
-- resource comes twice.
structure WellFormed (roster : Roster) : Prop where
  ids : roster.roles.Distinct
  keys : ∀ e ∈ roster.roles.entries, RoleId.ofKey e.2.key = e.1
  roles : ∀ filed ∈ roster.roles.values, filed.role.WellFormed

end Roster

end RoleAccess
