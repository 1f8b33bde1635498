import RoleAccess.Log.Level
import RoleAccess.Number.Binary64
import RoleAccess.Role

namespace RoleAccess

-- Data of any kind, as hosts use it for ids and hand it in for configurations and records.
inductive Value where
  | none
  | bool (b : Bool)
  | int (n : Int)
  | float (x : Binary64)
  | text (s : String)
  | bytes (bs : List UInt8)
  | level (l : Level)
  | list (items : List Value)
  | tuple (items : List Value)
  | set (items : List Value)
  | map (entries : List (Value × Value))
  | role (r : Role)

instance : Inhabited Value := ⟨.none⟩

-- The kinds of data. A level counts as a kind of its own, although it reads as a text.
inductive Kind where
  | none
  | bool
  | int
  | float
  | text
  | bytes
  | level
  | list
  | tuple
  | set
  | map
  | role
  deriving DecidableEq

namespace Kind

-- The name by which messages call the kind.
def name : Kind → String
  | none => "NoneType"
  | bool => "bool"
  | int => "int"
  | float => "float"
  | text => "str"
  | bytes => "bytes"
  | level => "LogLevel"
  | list => "list"
  | tuple => "tuple"
  | set => "set"
  | map => "dict"
  | role => "RoleDefinition"

-- The name with the place of the definition in front, where the kind is not built in.
def fullName : Kind → String
  | level => "contextrbac.config." ++ level.name
  | role => "contextrbac.permissions.models." ++ role.name
  | kind => kind.name

end Kind

namespace Value

def kind : Value → Kind
  | none => .none
  | bool _ => .bool
  | int _ => .int
  | float _ => .float
  | text _ => .text
  | bytes _ => .bytes
  | level _ => .level
  | list _ => .list
  | tuple _ => .tuple
  | set _ => .set
  | map _ => .map
  | role _ => .role

-- The text of what reads as one.
def text? : Value → Option String
  | text s => some s
  | level l => some l.name
  | _ => Option.none

-- Nothing, zero and all that is empty count as false.
def truthy : Value → Bool
  | none => false
  | bool b => b
  | int n => n ≠ 0
  | float x => !x.isZero
  | text s => s ≠ ""
  | bytes bs => bs ≠ []
  | level _ => true
  | list items | tuple items | set items => !items.isEmpty
  | map entries => !entries.isEmpty
  | role _ => true

def ofOption {α : Type} (f : α → Value) (o : Option α) : Value := o.elim none f

def ofTexts (texts : List String) : Value := list (texts.map text)

-- The fields of a role with their names, in the order of its definition.
def ofRole (r : Role) : List (String × Value) :=
  [("name", ofOption text r.name),
    ("description", ofOption text r.description),
    ("permissions", map (r.permissions.entries.map fun e => (text e.1, ofTexts e.2))),
    ("inherits", ofOption ofTexts r.inherits)]

def characters (s : String) : List Value := s.toList.map fun c => text c.toString

def numbers (bs : List UInt8) : List Value := bs.map fun b => int b.toNat

-- What there is to go through one by one: the keys of a map, the characters of a text, the
-- numbers of a byte sequence, the named fields of a role.
def elements? : Value → Option (List Value)
  | list items | tuple items | set items => some items
  | map entries => some (entries.map (·.1))
  | text s => some (characters s)
  | level l => some (characters l.name)
  | bytes bs => some (numbers bs)
  | role r => some ((ofRole r).map fun e => tuple [text e.1, e.2])
  | none | bool _ | int _ | float _ => Option.none

-- Bytes read as text, where they are UTF-8.
def decodeBytes? (bs : List UInt8) : Option String := String.fromUTF8? ⟨bs.toArray⟩

-- What a map holds under a name.
def field? {α : Type} (entries : List (Value × α)) (name : String) : Option α :=
  (entries.find? fun e => e.1.text? = some name).map (·.2)

end Value

end RoleAccess
