import RoleAccess.Fault

namespace RoleAccess

-- Error classes by name, and the registry that gives the class for a code.
structure Registry where
  classes : Table String FaultClass
  byCode : Table String FaultClass
  deriving DecidableEq

namespace Registry

-- At first each class of the library is registered under its own code.
def initial : Registry where
  classes := .ofList (FaultClass.builtin.map fun c => (c.name, c))
  byCode := .ofList (FaultClass.builtin.map fun c => (c.code, c))

-- A code that is already taken keeps its place and gets the new class.
def register (r : Registry) (code : String) (c : FaultClass) : Registry :=
  { r with byCode := r.byCode.put code c }

def find? (r : Registry) (code : String) : Option FaultClass := r.byCode.get? code

-- Adds a class, and registers it if a code for that is given.
def define (r : Registry) (c : FaultClass) (code : Option String) : Registry :=
  let known := { r with classes := r.classes.put c.name c }
  code.elim known fun code => known.register code c

end Registry

-- What can be done with a registry. Classes are named.
inductive RegistryCommand where
  | define (name base : String) (code message register : Option String)
  | register (code name : String)
  | find (code : String)
  | list
  | clearCopy
  | raise (lookup : String) (arguments : List (Value × Value))

inductive RegistryAnswer where
  | defined
  | done
  | found (c : Option FaultClass)
  | listed (entries : List (String × FaultClass))
  | size (n : Nat)
  | raised (fault : Fault)
  | notRaised
  | refused (e : NamingError)

namespace Registry

-- Carries a command out. A command that names an unknown class has no answer.
def run? (r : Registry) : RegistryCommand → Option (RegistryAnswer × Registry)
  | .define name base code message register =>
    (r.classes.get? base).map fun b => (.defined, r.define (b.derive name code message) register)
  | .register code name => (r.classes.get? name).map fun c => (.done, r.register code c)
  | .find code => some (.found (r.find? code), r)
  | .list => some (.listed r.byCode.entries, r)
  -- the registry hands out copies, so to clear one leaves it as it is
  | .clearCopy => some (.size r.byCode.size, r)
  | .raise lookup arguments =>
    match r.find? lookup with
    | none => some (.notRaised, r)
    | some c => match c.raise arguments with
      | .ok fault => some (.raised fault, r)
      | .error e => some (.refused e, r)

end Registry

end RoleAccess
