import RoleAccess.Table

namespace RoleAccess

-- What a role is filed under. A name is text and only text can be asked for or inherited
-- from. A key of another kind is kept all the same, under what marks it off from the others:
-- its role is listed and counted.
inductive RoleId where
  | named (name : String)
  | other (mark : String)
  deriving DecidableEq

namespace RoleId

-- How a role without a display name is called.
def shown : RoleId → String
  | named name => name
  | other mark => mark

end RoleId

-- What is configured for one role. Without `inherits` the parents are left open, which an
-- update tells apart from an empty list of them.
structure Role where
  name : Option String
  description : Option String
  permissions : Table String (List String)
  inherits : Option (List String)
  deriving DecidableEq

namespace Role

def empty : Role := ⟨none, none, .empty, none⟩

def parents (role : Role) : List RoleId := (role.inherits.getD []).map .named

-- The tokens given on a resource by the role itself.
def tokens (role : Role) (resource : String) : List String :=
  (role.permissions.get? resource).getD []

-- Tokens that come in are put behind those already held, each one once.
def addTokens (held : Option (List String)) (new : List String) : List String :=
  (held.getD [] ++ new).eraseDups

-- Lays an update over a role. Tokens add up per resource, and all else is replaced where the
-- update supplies it and kept where it does not. Lists of parents are never joined.
def merge (old new : Role) : Role where
  name := new.name.or old.name
  description := new.description.or old.description
  permissions := old.permissions.absorb addTokens new.permissions
  inherits := new.inherits.or old.inherits

-- Takes tokens in one after the other, except those that are held by then.
def extend (held new : List String) : List String :=
  new.foldl (fun held token => if token ∈ held then held else held ++ [token]) held

-- The same as a run over the tokens of each resource.
def overlay (old new : Role) : Role where
  name := new.name.or old.name
  description := new.description.or old.description
  permissions := old.permissions.absorb (fun held ts => extend (held.getD []) ts) new.permissions
  inherits := new.inherits.or old.inherits

-- The role with one more token on a resource.
def withToken (role : Role) (resource token : String) : Role :=
  { role with
    permissions := role.permissions.alter resource fun held => held.getD [] ++ [token] }

-- A role as it may be held: no resource and no token on a resource comes twice.
structure WellFormed (role : Role) : Prop where
  resources : role.permissions.Distinct
  tokens : ∀ tokens ∈ role.permissions.values, tokens.Nodup

end Role

end RoleAccess
