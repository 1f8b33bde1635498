import RoleAccess.Value.Naming

namespace RoleAccess

-- The families of errors, each one a part of those before it.
inductive Family where
  | general
  | configuration
  | roleConfiguration
  deriving DecidableEq

namespace Family

def name : Family → String
  | general => "RBACError"
  | configuration => "ConfigurationError"
  | roleConfiguration => "RoleConfigurationError"

-- The families an error of this family belongs to, the widest one first.
def within : Family → List Family
  | general => [general]
  | configuration => [general, configuration]
  | roleConfiguration => [general, configuration, roleConfiguration]

end Family

-- A class of errors with the code and the message it uses when none are given.
structure FaultClass where
  name : String
  family : Family
  code : String
  message : String
  deriving DecidableEq

-- An error as it was raised. Message and code are texts unless a host has given something else.
-- Details are kept by name.
structure Fault where
  origin : FaultClass
  message : Value
  code : Value
  details : List (Value × Value)

namespace FaultClass

def general : FaultClass :=
  ⟨Family.general.name, .general, "INTERNAL_ERROR", "An internal error occurred"⟩

def configuration : FaultClass :=
  ⟨Family.configuration.name, .configuration, "CONFIGURATION_ERROR", "Invalid configuration"⟩

def roleConfiguration : FaultClass :=
  ⟨Family.roleConfiguration.name, .roleConfiguration, "ROLE_CONFIGURATION_ERROR",
    "Invalid role configuration"⟩

def builtin : List FaultClass := [general, configuration, roleConfiguration]

-- A class within another one. It takes over what it does not set itself.
def derive (base : FaultClass) (name : String) (code message : Option String) : FaultClass :=
  ⟨name, base.family, code.getD base.code, message.getD base.message⟩

-- What is given, unless it counts as false, or else the default.
def orDefault (given : Value) (default : String) : Value :=
  if given.truthy then given else .text default

def callee : Callee := ⟨Family.general.name ++ ".__init__", ["self"], none⟩

-- Raises an error of the class. What is given by name is the message, the code and the details.
def raise (c : FaultClass) (arguments : List (Value × Value)) : Except NamingError Fault :=
  (callee.accept arguments).map fun _ =>
    let (message, arguments) := Value.take "message" .none arguments
    let (code, details) := Value.take "code" .none arguments
    ⟨c, orDefault message c.message, orDefault code c.code, details⟩

end FaultClass

end RoleAccess
