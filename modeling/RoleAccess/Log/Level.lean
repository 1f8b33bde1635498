namespace RoleAccess

-- How grave a log record is.
inductive Level where
  | debug
  | info
  | warning
  | error
  | critical
  deriving DecidableEq, Repr

namespace Level

def all : List Level := [debug, info, warning, error, critical]

def name : Level → String
  | debug => "DEBUG"
  | info => "INFO"
  | warning => "WARNING"
  | error => "ERROR"
  | critical => "CRITICAL"

-- Levels are compared by number, the graver one having the higher number.
def number : Level → Nat
  | debug => 10
  | info => 20
  | warning => 30
  | error => 40
  | critical => 50

def ofName? (name : String) : Option Level := all.find? fun level => level.name = name

end Level

end RoleAccess
