import RoleAccess.Permission

namespace RoleAccess

-- Why a request is granted or denied, in the order in which the reasons are considered.
inductive Reason where
  | roleNotFound
  | resourceNotAllowed
  | wildcardPermission
  | wildcardWithOwnership
  | ownershipCheckFailed
  | genericPermissionWithOwnership
  | requiresOwnership
  | actionNotAllowed
  | permissionWithOwnership
  | permissionWithOwnershipDefault
  | permissionGranted
  deriving DecidableEq, Repr

namespace Reason

def all : List Reason :=
  [roleNotFound, resourceNotAllowed, wildcardPermission, wildcardWithOwnership,
    ownershipCheckFailed, genericPermissionWithOwnership, requiresOwnership, actionNotAllowed,
    permissionWithOwnership, permissionWithOwnershipDefault, permissionGranted]

-- The reasons on which access is given.
def granting : Reason → Bool
  | wildcardPermission | wildcardWithOwnership | genericPermissionWithOwnership
  | permissionWithOwnership | permissionWithOwnershipDefault | permissionGranted => true
  | roleNotFound | resourceNotAllowed | ownershipCheckFailed | requiresOwnership
  | actionNotAllowed => false

def code : Reason → String
  | roleNotFound => "ROLE_NOT_FOUND"
  | resourceNotAllowed => "RESOURCE_NOT_ALLOWED"
  | wildcardPermission => "WILDCARD_PERMISSION"
  | wildcardWithOwnership => "WILDCARD_WITH_OWNERSHIP"
  | ownershipCheckFailed => "OWNERSHIP_CHECK_FAILED"
  | genericPermissionWithOwnership => "GENERIC_PERMISSION_WITH_OWNERSHIP"
  | requiresOwnership => "REQUIRES_OWNERSHIP"
  | actionNotAllowed => "ACTION_NOT_ALLOWED"
  | permissionWithOwnership => "PERMISSION_WITH_OWNERSHIP"
  | permissionWithOwnershipDefault => "PERMISSION_WITH_OWNERSHIP_DEFAULT"
  | permissionGranted => "PERMISSION_GRANTED"

end Reason

-- How the grants on one action stand to a request for it.
inductive Fit where
  | exact
  | otherQualifier
  | none
  deriving DecidableEq

-- Looks through the grants for one with the action and the qualifier asked for. On the way it
-- notes whether a request without a qualifier meets the action in a qualified form only.
def fit (request : Permission) : List String → Fit
  | [] => .none
  | token :: tokens =>
    let grant := Permission.parse token
    if grant.action = request.action ∧ grant.qualifier = request.qualifier then .exact
    else
      match fit request tokens with
      | .none =>
        if grant.action = request.action ∧ ¬ request.isQualified ∧ grant.isQualified
        then .otherQualifier else .none
      | found => found

-- The rule that settles a request, given all tokens that hold for the role on the resource.
-- A wildcard comes first, then the bare action for a qualified request, then the grant that
-- has the request's own form. An outcome the request carries counts only after that.
def verdict (tokens : List String) (request : Permission) : Reason :=
  if tokens = [] then .resourceNotAllowed
  else if Permission.wildcard ∈ tokens then
    if ¬ request.isQualified then .wildcardPermission
    else if ¬ request.hasResult ∨ request.resultPassed then .wildcardWithOwnership
    else .ownershipCheckFailed
  else if request.isQualified ∧ request.action ∈ tokens then .genericPermissionWithOwnership
  else
    match fit request tokens with
    | .none => .actionNotAllowed
    | .otherQualifier => .requiresOwnership
    | .exact =>
      if request.hasResult then
        if request.resultPassed then .permissionWithOwnership else .ownershipCheckFailed
      else if request.isQualified then .permissionWithOwnershipDefault
      else .permissionGranted

-- The search as a loop that goes through the tokens in some order. What it has noted is carried
-- along, and the first grant of the right form ends it.
def scan (request : Permission) (noted : Bool) : List String → Fit
  | [] => if noted then .otherQualifier else .none
  | token :: tokens =>
    let grant := Permission.parse token
    if grant.action ≠ request.action then scan request noted tokens
    else if grant.qualifier = request.qualifier then .exact
    else scan request (noted || (!request.isQualified && grant.isQualified)) tokens

-- The decision on a set of tokens that is gone through in some order.
def verdictAlong (order tokens : List String) (request : Permission) : Reason :=
  if tokens = [] then .resourceNotAllowed
  else if Permission.wildcard ∈ order then
    if ¬ request.isQualified then .wildcardPermission
    else if ¬ request.hasResult ∨ request.resultPassed then .wildcardWithOwnership
    else .ownershipCheckFailed
  else if request.isQualified ∧ request.action ∈ order then .genericPermissionWithOwnership
  else
    match scan request false order with
    | .none => .actionNotAllowed
    | .otherQualifier => .requiresOwnership
    | .exact =>
      if request.hasResult then
        if request.resultPassed then .permissionWithOwnership else .ownershipCheckFailed
      else if request.isQualified then .permissionWithOwnershipDefault
      else .permissionGranted

-- Whether the tokens grant one request.
def grants (tokens : List String) (token : String) : Bool :=
  (verdict tokens (Permission.parse token)).granting

-- Whether the tokens grant the request when the outcome it carries is left out.
def grantsPattern (tokens : List String) (token : String) : Bool :=
  (verdict tokens (Permission.parse token).withoutResult).granting

end RoleAccess
