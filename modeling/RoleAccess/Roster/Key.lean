import RoleAccess.Value.Literal

namespace RoleAccess

namespace Value

mutual

-- What marks a key off from all others. Keys that are equal have the same mark: truth values
-- count as one and zero, whole numbers are written without a point, and a level is its name.
-- An undefined number equals no other, so it is marked by its bits.
def mark : Value → String
  | bool b => toString (if b then 1 else 0)
  | int n => toString n
  | float x =>
    if x.isNaN then "nan" ++ toString x.bits.toNat
    else x.whole?.elim (floatLiteral x) toString
  | level l => Text.quoted l.name
  | tuple items => "(" ++ marks items ++ ")"
  | v => literal v
termination_by structural v => v

def marks : List Value → String
  | [] => ""
  | v :: vs => mark v ++ "," ++ marks vs
termination_by structural vs => vs

end

end Value

namespace RoleId

-- What a role is filed under when a configuration has it under this key. Equal keys file it
-- under the same.
def ofKey (key : Value) : RoleId :=
  match key.text? with
  | some name => named name
  | none => other key.mark

end RoleId

end RoleAccess
