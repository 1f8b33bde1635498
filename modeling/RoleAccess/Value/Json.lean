import RoleAccess.Value.Literal

namespace RoleAccess.Value

def jsonFloat (x : Binary64) : String := x.text "NaN" "Infinity"

-- How a value is written as a name in a JSON object. Only texts, numbers, truth values and
-- nothing can be one.
def jsonName? : Value → Option String
  | none => some "null"
  | bool b => some (if b then "true" else "false")
  | int n => some (toString n)
  | float x => some (jsonFloat x)
  | text s => some s
  | level l => some l.name
  | _ => Option.none

mutual

-- A value as JSON, or the kind of the first name that JSON cannot write. Maps keep their order.
-- What JSON does not know is written as a text that shows it.
def json : Value → Except Kind String
  | none => .ok "null"
  | bool b => .ok (if b then "true" else "false")
  | int n => .ok (toString n)
  | float x => .ok (jsonFloat x)
  | text s => .ok (Text.quotedJson s)
  | level l => .ok (Text.quotedJson l.name)
  | list items | tuple items => (jsonItems items).map fun parts => "[" ++ separated parts ++ "]"
  | map entries =>
    (jsonEntries entries).map fun parts => "\x7b" ++ separated parts ++ "\x7d"
  | v => .ok (Text.quotedJson v.shown)
termination_by structural v => v

def jsonItems : List Value → Except Kind (List String)
  | [] => .ok []
  | v :: vs =>
    match json v with
    | .error kind => .error kind
    | .ok part => (jsonItems vs).map fun parts => part :: parts
termination_by structural vs => vs

def jsonEntries : List (Value × Value) → Except Kind (List String)
  | [] => .ok []
  | (k, v) :: es =>
    match jsonName? k with
    | Option.none => .error k.kind
    | some name =>
      match json v with
      | .error kind => .error kind
      | .ok part =>
        (jsonEntries es).map fun parts => (Text.quotedJson name ++ ": " ++ part) :: parts
termination_by structural es => es

end

end RoleAccess.Value
