import RoleAccess.Number.Written
import RoleAccess.Text.Quoted
import RoleAccess.Value

namespace RoleAccess.Value

def floatLiteral (x : Binary64) : String := x.text "nan" "inf"

def separated (parts : List String) : String := ", ".intercalate parts

-- The literals of a text or nothing and of a list of texts, which is all a role is made of.
def optionLiteral (o : Option String) : String := o.elim "None" Text.quoted

def textsLiteral (texts : List String) : String := "[" ++ separated (texts.map Text.quoted) ++ "]"

def fieldLiterals (r : Role) : List String :=
  ["name=" ++ optionLiteral r.name,
    "description=" ++ optionLiteral r.description,
    "permissions=\x7b" ++
      separated (r.permissions.entries.map fun e => Text.quoted e.1 ++ ": " ++ textsLiteral e.2) ++
      "\x7d",
    "inherits=" ++ r.inherits.elim "None" textsLiteral]

mutual

-- A value as a literal, all its parts included.
def literal : Value → String
  | none => "None"
  | bool b => if b then "True" else "False"
  | int n => toString n
  | float x => floatLiteral x
  | text s => Text.quoted s
  | bytes bs => Text.quotedBytes bs
  | level l => "<LogLevel." ++ l.name ++ ": " ++ Text.quoted l.name ++ ">"
  | list items => "[" ++ separated (literals items) ++ "]"
  | tuple [item] => "(" ++ literal item ++ ",)"
  | tuple items => "(" ++ separated (literals items) ++ ")"
  | set [] => "set()"
  | set items => "\x7b" ++ separated (literals items) ++ "\x7d"
  | map entries => "\x7b" ++ separated (entryLiterals entries) ++ "\x7d"
  | role r => "RoleDefinition(" ++ separated (fieldLiterals r) ++ ")"
termination_by structural v => v

def literals : List Value → List String
  | [] => []
  | v :: vs => literal v :: literals vs
termination_by structural vs => vs

def entryLiterals : List (Value × Value) → List String
  | [] => []
  | (k, v) :: es => (literal k ++ ": " ++ literal v) :: entryLiterals es
termination_by structural es => es

end

-- A value as it is shown by itself. A text is shown bare, a text inside something as a literal.
def shown : Value → String
  | text s => s
  | level l => "LogLevel." ++ l.name
  | role r => " ".intercalate (fieldLiterals r)
  | v => literal v

end RoleAccess.Value
