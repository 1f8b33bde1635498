import RoleAccess.Permission
import RoleAccess.Value.Identity
import RoleAccess.Value.Literal

namespace RoleAccess

-- The checks whose outcome a request can carry.
inductive Check where
  | own
  | group
  | val
  deriving DecidableEq

namespace Check

def all : List Check := [own, group, val]

def qualifier : Check → String
  | own => "own"
  | group => "group"
  | val => "val"

-- The token for a request whose check has been made. The action stands as it is given.
def token (check : Check) (action : String) (passed : Bool) : String :=
  Permission.token ⟨action, some check.qualifier, some (Permission.outcome passed)⟩

-- A request of the owner: actor and owner have to be the same id.
def ownToken (action : String) (actor owner : Value) : String :=
  own.token action (actor.sameId owner)

-- The actor's id is one of the members' ids.
def isMember (actor : Value) (members : List Value) : Bool := members.any fun m => actor.sameId m

-- A request of a member of a group. A group that has no members to go through is an error,
-- which names its kind.
def groupToken (action : String) (actor members : Value) : Except Kind String :=
  match members.elements? with
  | some members => .ok (group.token action (isMember actor members))
  | none => .error members.kind

-- A request with a check of the host's own. It is made once, at this point, and any value it
-- yields counts as true or false.
def valToken {m : Type → Type} [Monad m] (action : String) (validator : m Value) : m String := do
  let verdict ← validator
  return val.token action verdict.truthy

-- The message for a value without elements to go through.
def notIterable (kind : Kind) : String := s!"'{kind.name}' object is not iterable"

end Check

namespace Permission

-- A result as it is given: a text is taken as it is, any other value counts as true or false.
def resultOf (v : Value) : Value :=
  match v.text? with
  | some _ => v
  | none => .text (outcome v.truthy)

-- A permission from its parts. Nothing stands for no result.
def ofParts (action : String) (qualifier : Option String) (result : Value) : Permission :=
  match result with
  | .none => ⟨action, qualifier, none⟩
  | v => ⟨action, qualifier, some (resultOf v).shown⟩

end Permission

end RoleAccess
