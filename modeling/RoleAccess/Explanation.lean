import RoleAccess.Decision
import RoleAccess.Lineage

namespace RoleAccess

namespace Roster

-- A list of requests is granted when one of them is.
def can (roster : Roster) (id : RoleId) (requests : List String) (resource : String) : Bool :=
  let tokens := roster.resolve id resource
  requests.any fun request => grants tokens request

-- Whether the role holds what the request asks for, the outcome it carries left out.
def has (roster : Roster) (id : RoleId) (request resource : String) : Bool :=
  grantsPattern (roster.resolve id resource) request

def hasWildcard (roster : Roster) (id : RoleId) (resource : String) : Bool :=
  (roster.resolve id resource).contains Permission.wildcard

end Roster

-- A decision on one request with the reason for it, in a code and in words.
structure Explanation where
  granted : Bool
  reason : Reason
  role : RoleId
  resource : String
  action : String
  qualifier : Option String
  details : String
  deriving DecidableEq

namespace Explanation

-- The qualifiers under which the tokens grant an action, in code point order. An empty one
-- cannot be shown and is left out.
def qualifiersFor (tokens : List String) (action : String) : List String :=
  let qualifiers := (tokens.map Permission.parse).filterMap fun grant =>
    if grant.action = action then grant.qualifier.filter (· ≠ "") else none
  qualifiers.eraseDups.mergeSort

-- The reason in words. `name` is what the role is called, and `action` what the action is called.
def describe (reason : Reason) (name : String) (role : RoleId) (resource action : String)
    (request : Permission) (tokens : List String) : String :=
  let qualifier := request.qualifier.getD ""
  match reason with
  | .roleNotFound => s!"Role '{role.shown}' does not exist"
  | .resourceNotAllowed => s!"{name} has no permissions on '{resource}'"
  | .wildcardPermission => s!"{name} has wildcard permission on '{resource}'"
  | .wildcardWithOwnership =>
    s!"{name} has wildcard permission on '{resource}' and the '{qualifier}' check passed"
  | .ownershipCheckFailed =>
    if Permission.wildcard ∈ tokens then
      s!"{name} has wildcard permission on '{resource}' but the '{qualifier}' check failed"
    else s!"{name} can only '{action}' '{resource}' when the '{qualifier}' check passes"
  | .genericPermissionWithOwnership =>
    s!"{name} can '{action}' any '{resource}', no '{qualifier}' check needed"
  | .requiresOwnership =>
    let qualifiers := ", ".intercalate (qualifiersFor tokens request.action)
    s!"{name} can only '{action}' '{resource}' with a qualifier ({qualifiers})"
  | .actionNotAllowed => s!"{name} cannot '{action}' on '{resource}'"
  | .permissionWithOwnership => s!"{name} can '{action}' '{resource}', '{qualifier}' check passed"
  | .permissionWithOwnershipDefault =>
    s!"{name} can '{action}:{qualifier}' on '{resource}' (no check result supplied)"
  | .permissionGranted => s!"{name} can '{action}' on '{resource}'"

end Explanation

namespace Roster

-- Explains the decision on one request, whose action is called `action` in words. The tokens
-- are resolved for an unknown role too.
def explainAs (roster : Roster) (id : RoleId) (action token resource : String) : Explanation :=
  let request := Permission.parse token
  let tokens := roster.resolve id resource
  let reason := if roster.contains id then verdict tokens request else .roleNotFound
  { granted := reason.granting
    reason
    role := id
    resource
    action := request.action
    qualifier := request.qualifier
    details :=
      Explanation.describe reason (roster.displayName id) id resource action request tokens }

-- Explains the decision on one request by the name that its action has in the token.
def explain (roster : Roster) (id : RoleId) (token resource : String) : Explanation :=
  roster.explainAs id (Permission.parse token).action token resource

-- One explanation for each request, in their order.
def explainAll (roster : Roster) (id : RoleId) (tokens : List String) (resource : String) :
    List Explanation :=
  tokens.map fun token => roster.explain id token resource

end Roster

end RoleAccess
