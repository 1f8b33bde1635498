import RoleAccess.Value.Identity
import RoleAccess.Value.Literal

namespace RoleAccess

-- Why a value has nothing under a key.
inductive PartError where
  | noParts (kind : Kind)
  | notPlace (kind key : Kind)
  | outOfRange (kind : Kind)
  | hugePlace (key : Kind)
  | noEntry (key : Value)

namespace PartError

def message : PartError → String
  | noParts kind => s!"'{kind.name}' object is not subscriptable"
  | notPlace .text key | notPlace .level key =>
    s!"string indices must be integers, not '{key.name}'"
  | notPlace .bytes key => s!"byte indices must be integers or slices, not {key.name}"
  | notPlace kind key => s!"{kind.name} indices must be integers or slices, not {key.name}"
  | outOfRange .text | outOfRange .level => "string index out of range"
  | outOfRange .bytes => "index out of range"
  | outOfRange kind => s!"{kind.name} index out of range"
  | hugePlace key => s!"cannot fit '{key.name}' into an index-sized integer"
  | noEntry key => key.literal

end PartError

namespace Value

-- Places are whole numbers. Truth values count as zero and one.
def place? : Value → Option Int
  | bool b => some (if b then 1 else 0)
  | int n => some n
  | _ => Option.none

-- The item at a place. Places below zero count from the end.
def itemAt? (items : List Value) (place : Int) : Option Value :=
  let index := if place < 0 then place + items.length else place
  if index < 0 then Option.none else items[index.toNat]?

-- The item of a sequence of some kind that a key stands for.
def item (kind : Kind) (items : List Value) (key : Value) : Except PartError Value :=
  match key.place? with
  | Option.none => .error (.notPlace kind key.kind)
  | some place =>
    if isWord place then
      match itemAt? items place with
      | some v => .ok v
      | Option.none => .error (.outOfRange kind)
    else .error (.hugePlace key.kind)

-- What a value holds under a key: the value of an equal key in a map, the item at a place in a
-- sequence. Other values have no parts.
def part (v key : Value) : Except PartError Value :=
  match v with
  | map entries =>
    match entries.find? fun e => equal e.1 key with
    | some e => .ok e.2
    | Option.none => .error (.noEntry key)
  | list items => item .list items key
  | tuple items => item .tuple items key
  | text s => item .text (characters s) key
  | level l => item .level (characters l.name) key
  | bytes bs => item .bytes (numbers bs) key
  | v => .error (.noParts v.kind)

end Value

end RoleAccess
