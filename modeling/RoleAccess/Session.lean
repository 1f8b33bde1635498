import RoleAccess.Event
import RoleAccess.Log.Preview
import RoleAccess.Request
import RoleAccess.Roster.Configuration
import RoleAccess.Settings

namespace RoleAccess

-- Why a session cannot answer.
inductive SessionError where
  | configuration (e : ConfigurationError)
  | request (e : RequestError)
  | record (e : ShowError)

-- A roster in use, with the settings under which it is used.
structure Session where
  settings : Settings
  roster : Roster

-- What can be asked of a session.
inductive Command where
  | can (role : RoleId) (request : Request) (resource : String)
  | explain (role : RoleId) (request : Request) (resource : String)
  | has (role : RoleId) (token resource : String)
  | hasWildcard (role : RoleId) (resource : String)
  | inheritsFrom (role ancestor : RoleId)
  | roles
  | displayName (role : RoleId)
  | description (role : RoleId)
  | parents (role : RoleId)
  | ancestors (role : RoleId)
  | resources (role : RoleId)
  | tokens (role : RoleId) (resource : String)
  | directTokens (role : RoleId) (resource : String)
  | allTokens (role : RoleId)
  | definition (role : RoleId)
  | editedDefinition (role : RoleId) (resource token : String) (inherits : Option (List String))
  | contains (role : RoleId)
  | size
  | settings
  | literals
  | update (configuration : Value) (merge : Bool)
  | merge (configuration : Value)
  | replace (configuration : Value)

inductive Answer where
  | truth (b : Bool)
  | explanation (e : Explanation)
  | explanations (es : List Explanation)
  | roles (ids : List RoleId)
  | keys (keys : List Value)
  | text (s : Option String)
  | texts (ss : List String)
  | tokenTable (t : Table String (List String))
  | definition (role : Option Role)
  | count (n : Nat)
  | settings (s : Settings)
  | self
  | done

-- What a command leads to: an answer or the reason why there is none, the events in the order
-- in which they occurred, and the session from there on. A lapse is what went wrong when the
-- answer was to be recorded.
structure Outcome where
  answer : Except SessionError Answer
  events : List Event
  session : Session
  lapse : Option ShowError

-- What the caller gets. A lapse takes the place of the answer.
def Outcome.returned (outcome : Outcome) : Except SessionError Answer :=
  outcome.lapse.elim outcome.answer fun e => .error (.record e)

namespace Roster

-- The events of a full walk up from a role, known or not.
def walkEvents (roster : Roster) (id : RoleId) : List Event :=
  ((roster.lineage.trace id).filterMap (·.cycle?)).map (.cycle id)

def searchEvents (roster : Roster) (id ancestor : RoleId) : List Event :=
  if roster.contains id ∧ roster.contains ancestor then
    ((roster.lineage.traceUntil id ancestor).filterMap (·.cycle?)).map (.cycle id)
  else []

-- The events of a walk that is not begun for an unknown role.
def knownWalkEvents (roster : Roster) (id : RoleId) : List Event :=
  if roster.contains id then roster.walkEvents id else []

end Roster

namespace Session

-- What a session and its roster look like when they are printed.
def literals (s : Session) : List String :=
  let roles := "(roles=[" ++ Value.separated (s.roster.keys.map Value.literal) ++ "])"
  ["RBAC" ++ roles, "RoleStore" ++ roles]

-- Starts a session with the roles of a configuration.
def start? (settings : Settings) (configuration : Value) :
    Except ConfigurationError Session × List Event :=
  match Roster.create? configuration with
  | .error e => (.error e, [])
  | .ok roster => (.ok ⟨settings, roster⟩, [.created roster.size])

-- An answer that leaves the session as it is.
def reply (s : Session) (answer : Answer) (events : List Event) : Outcome :=
  ⟨.ok answer, events, s, none⟩

-- No answer, which leaves the session as it is too.
def refuse (s : Session) (e : SessionError) (events : List Event) : Outcome :=
  ⟨.error e, events, s, none⟩

-- The events are kept if decisions are to be recorded.
def ifDecisions (s : Session) (events : List Event) : List Event :=
  if s.settings.decisions then events else []

-- The record of a decision, if decisions are to be recorded. The line for what was asked is made
-- before the record is, and there is no record if the line cannot be made.
def recordOfDecision (s : Session) (granted : Bool) (role : RoleId) (request : Request)
    (resource : String) : Except ShowError (List Event) :=
  if s.settings.decisions then
    request.preview?.map fun shown => [.decided granted role resource shown]
  else .ok []

def replyDecided (s : Session) (granted : Bool) (role : RoleId) (request : Request)
    (resource : String) : Outcome :=
  let recorded := s.recordOfDecision granted role request resource
  { answer := .ok (.truth granted)
    events := s.roster.walkEvents role ++ recorded.toOption.getD []
    session := s
    lapse := match recorded with
      | .error e => some e
      | .ok _ => none }

-- One token is enough. Those before a flaw are tried, and only if none of them does, the flaw
-- counts.
def canRequest (s : Session) (role : RoleId) (request : Request) (resource : String) : Outcome :=
  let granted := s.roster.can role request.tokens resource
  match request.flaw?, granted with
  | some e, false => s.refuse (.request e) (s.roster.walkEvents role)
  | _, _ => s.replyDecided granted role request resource

-- One request gets one explanation, several get a list of them.
def explainRequest (s : Session) (role : RoleId) (request : Request) (resource : String) :
    Outcome :=
  let explain := fun (asked : Asked) =>
    s.roster.explainAs role asked.action asked.token resource
  let explanations := request.asked.map explain
  let answer := match request with
    | .one asked => .explanation (explain asked)
    | .any _ _ _ => .explanations explanations
  let walks := request.asked.flatMap fun _ => s.roster.walkEvents role
  match request.flaw? with
  | some e => s.refuse (.request e) walks
  | none => s.reply answer (walks ++ s.ifDecisions (explanations.map .explained))

-- All of a configuration is checked before any of it is used, so a bad one changes nothing.
def change (s : Session) (configuration : Value) (merge : Bool) (answer : Answer) : Outcome :=
  match Roster.ofValue? configuration with
  | .error e => s.refuse (.configuration e) []
  | .ok update =>
    if merge then
      let added := s.roster.countNew update
      { s with roster := s.roster.merge update }.reply answer
        [.merged added (update.size - added)]
    else { s with roster := update }.reply answer [.replaced update.size]

def run (s : Session) : Command → Outcome
  | .can role request resource => s.canRequest role request resource
  | .explain role request resource => s.explainRequest role request resource
  | .has role token resource =>
    s.reply (.truth (s.roster.has role token resource)) (s.roster.walkEvents role)
  | .hasWildcard role resource =>
    s.reply (.truth (s.roster.hasWildcard role resource)) (s.roster.walkEvents role)
  | .inheritsFrom role ancestor =>
    s.reply (.truth (s.roster.inheritsFrom role ancestor)) (s.roster.searchEvents role ancestor)
  | .roles => s.reply (.keys s.roster.keys) []
  | .displayName role => s.reply (.text (s.roster.displayName role)) []
  | .description role => s.reply (.text (s.roster.description role)) []
  | .parents role => s.reply (.roles (s.roster.parents role)) []
  | .ancestors role => s.reply (.roles (s.roster.ancestors role)) (s.roster.knownWalkEvents role)
  | .resources role => s.reply (.texts (s.roster.resources role)) []
  | .tokens role resource =>
    s.reply (.texts (s.roster.resolve role resource)) (s.roster.walkEvents role)
  | .directTokens role resource => s.reply (.texts (s.roster.directTokens role resource)) []
  | .allTokens role =>
    s.reply (.tokenTable (s.roster.resolveAll role)) (s.roster.knownWalkEvents role)
  | .definition role => s.reply (.definition (s.roster.get? role)) []
  | .editedDefinition role resource token inherits =>
    let edited := (s.roster.get? role).map fun r => { r.withToken resource token with inherits }
    s.reply (.definition edited) []
  | .contains role => s.reply (.truth (s.roster.contains role)) []
  | .size => s.reply (.count s.roster.size) []
  | .settings => s.reply (.settings s.settings) []
  | .literals => s.reply (.texts s.literals) []
  | .update configuration merge => s.change configuration merge .self
  | .merge configuration => s.change configuration true .done
  | .replace configuration => s.change configuration false .done

-- Runs commands one after the other. An error does not end the run.
def runAll (s : Session) : List Command → List Outcome
  | [] => []
  | c :: cs =>
    let outcome := s.run c
    outcome :: outcome.session.runAll cs

end Session

end RoleAccess
