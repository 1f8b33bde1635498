import RoleAccess.Value.Literal

namespace RoleAccess

-- Why values cannot be handed over by name.
inductive NamingError where
  | notText
  | repeated (callee name : String)
  | unknown (callee name : String)
  deriving DecidableEq

namespace NamingError

def message : NamingError → String
  | notText => "keywords must be strings"
  | repeated callee name => s!"{callee}() got multiple values for argument '{name}'"
  | unknown callee name => s!"{callee}() got an unexpected keyword argument '{name}'"

end NamingError

-- Who takes values by name: which names are given already, and which are the only ones that
-- may be given, where not all may.
structure Callee where
  name : String
  taken : List String
  known : Option (List String)

namespace Callee

-- What is wrong with the first name that cannot be given.
def objection? (callee : Callee) : List (Value × Value) → Option NamingError
  | [] => none
  | (key, _) :: rest =>
    let name := key.text?.getD ""
    if name ∈ callee.taken then some (.repeated callee.name key.shown)
    else if callee.known.all fun known => name ∈ known then callee.objection? rest
    else some (.unknown callee.name key.shown)

-- All names have to be texts before any of them is looked at.
def accept (callee : Callee) (arguments : List (Value × Value)) : Except NamingError Unit :=
  if arguments.any fun e => e.1.text?.isNone then .error .notText
  else
    match callee.objection? arguments with
    | some e => .error e
    | none => .ok ()

end Callee

namespace Value

-- Takes a value out by its name. If it was not given at all, the default stands for it.
def take (name : String) (default : Value) (entries : List (Value × Value)) :
    Value × List (Value × Value) :=
  ((field? entries name).getD default, entries.filter fun e => e.1.text? ≠ some name)

end Value

end RoleAccess
