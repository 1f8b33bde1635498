import RoleAccess.Value.Literal

namespace RoleAccess

-- What can be wrong with a value that is checked against a schema.
inductive Problem where
  | notRole
  | notText
  | notUnicode
  | notMap
  | notList
  | notTruthValue
  | unclearTruthValue
  | unknownLevel (name : String)
  | notLevel (kind : Kind)
  | unknownField
  deriving DecidableEq

namespace Problem

def code : Problem → String
  | notRole => "model_type"
  | notText => "string_type"
  | notUnicode => "string_unicode"
  | notMap => "dict_type"
  | notList => "list_type"
  | notTruthValue => "bool_type"
  | unclearTruthValue => "bool_parsing"
  | unknownLevel _ | notLevel _ => "value_error"
  | unknownField => "extra_forbidden"

def message : Problem → String
  | notRole => "Input should be a valid dictionary or instance of RoleDefinition"
  | notText => "Input should be a valid string"
  | notUnicode =>
    "Input should be a valid string, unable to parse raw data as a unicode string"
  | notMap => "Input should be a valid dictionary"
  | notList => "Input should be a valid list"
  | notTruthValue => "Input should be a valid boolean"
  | unclearTruthValue => "Input should be a valid boolean, unable to interpret input"
  | unknownLevel name =>
    s!"Value error, Invalid log level: {name}. Must be one of " ++
      Value.textsLiteral (Level.all.map Level.name)
  | notLevel kind =>
    s!"Value error, Log level must be string or LogLevel enum, got <class '{kind.fullName}'>"
  | unknownField => "Extra inputs are not permitted"

end Problem

-- One step on the way to a part of a value.
inductive Step where
  | name (s : String)
  | index (n : Int)
  deriving DecidableEq

namespace Step

-- The step to what a map holds under a key. An integer of more than 64 bits is shown as a name.
-- The name `[key]` leads to the key itself.
def ofKey : Value → Step
  | .text s => name s
  | .level l => name l.name
  | .int n => if isWord n then index n else name (toString n)
  | .bool b => index (if b then 1 else 0)
  | v => name v.literal

def key : Step := name "[key]"

end Step

-- A problem with the place where it was found.
structure Issue where
  path : List Step
  problem : Problem
  deriving DecidableEq

namespace Issue

-- The issue as seen from one level further up.
def under (step : Step) (issue : Issue) : Issue := { issue with path := step :: issue.path }

end Issue

-- Either a value that fits a schema or all that is wrong, in order.
abbrev Checked (α : Type) := Except (List Issue) α

namespace Checked

variable {α β : Type}

def fail (problem : Problem) : Checked α := .error [⟨[], problem⟩]

-- The issues of a part, as issues of the whole.
def under (step : Step) : Checked α → Checked α
  | .ok a => .ok a
  | .error issues => .error (issues.map (.under step))

-- Two checks side by side: the issues of both count, the first one's before the second one's.
def both : Checked α → Checked β → Checked (α × β)
  | .ok a, .ok b => .ok (a, b)
  | .ok _, .error issues => .error issues
  | .error issues, .ok _ => .error issues
  | .error first, .error second => .error (first ++ second)

-- Checks every item, the items being counted from `index` on.
def items (check : Value → Checked α) : Nat → List Value → Checked (List α)
  | _, [] => .ok []
  | index, v :: vs =>
    ((check v).under (.index index)).both (items check (index + 1) vs) |>.map fun p => p.1 :: p.2

-- Checks all entries of a map, the key of each before its value.
def entries (key : Value → Checked α) (value : Value → Checked β) :
    List (Value × Value) → Checked (List (α × β))
  | [] => .ok []
  | (k, v) :: es =>
    let entry := (((key k).under .key).both (value v)).under (.ofKey k)
    entry.both (entries key value es) |>.map fun p => p.1 :: p.2

end Checked

namespace Value

variable {α : Type}

-- A text, or bytes that read as one.
def checkText : Value → Checked String
  | text s => .ok s
  | level l => .ok l.name
  | bytes bs => match decodeBytes? bs with
    | some s => .ok s
    | Option.none => .fail .notUnicode
  | _ => .fail .notText

-- The items of a list, or of what passes for one: all that can be gone through one by one, texts,
-- bytes and maps apart.
def items? : Value → Option (List Value)
  | text _ | level _ | bytes _ | map _ => Option.none
  | v => v.elements?

def checkTexts (v : Value) : Checked (List String) :=
  match v.items? with
  | some items => Checked.items checkText 0 items
  | Option.none => .fail .notList

-- What is allowed to be left open.
def checkOption (check : Value → Checked α) : Value → Checked (Option α)
  | none => .ok Option.none
  | v => (check v).map some

-- The field of that name, or what stands for it when it is missing.
def checkField (entries : List (Value × Value)) (name : String) (check : Value → Checked α)
    (missing : α) : Checked α :=
  match field? entries name with
  | Option.none => .ok missing
  | some v => (check v).under (.name name)

end Value

end RoleAccess
