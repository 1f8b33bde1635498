import RoleAccess.Value.Literal

namespace RoleAccess

-- How much can be shown: how many digits a whole number may have, and how deep values may lie
-- inside each other.
structure Limits where
  digits : Nat
  depth : Nat

def Limits.standard : Limits := ⟨4300, 1000⟩

-- What the code of a host has raised.
structure HostError where
  kind : String
  text : String
  deriving DecidableEq

-- Why something cannot be shown.
inductive ShowError where
  | tooManyDigits (limit : Nat)
  | tooDeep
  | host (e : HostError)
  deriving DecidableEq

namespace ShowError

def message : ShowError → String
  | tooManyDigits limit =>
    s!"Exceeds the limit ({limit} digits) for integer string conversion; " ++
      "use sys.set_int_max_str_digits() to increase the limit"
  | tooDeep => "maximum recursion depth exceeded"
  | host e => e.text

end ShowError

namespace Value

mutual

-- What keeps a value from being shown, if there is something. The second number is how many
-- values may still be entered, one inside the other.
def obstacle? (digits : Nat) : Nat → Value → Option ShowError
  | _, int n => if Nat.pow 10 digits ≤ n.natAbs then some (.tooManyDigits digits) else Option.none
  | depth, list items | depth, tuple items | depth, set items => obstacleAmong? digits depth items
  | depth, map entries => obstacleInEntries? digits depth entries
  | _, _ => Option.none
termination_by structural _ v => v

def obstacleAmong? (digits : Nat) : Nat → List Value → Option ShowError
  | 0, _ => some .tooDeep
  | _ + 1, [] => Option.none
  | depth + 1, v :: vs => (obstacle? digits depth v).or (obstacleAmong? digits (depth + 1) vs)
termination_by structural _ vs => vs

def obstacleInEntries? (digits : Nat) : Nat → List (Value × Value) → Option ShowError
  | 0, _ => some .tooDeep
  | _ + 1, [] => Option.none
  | depth + 1, (k, v) :: es =>
    ((obstacle? digits depth k).or (obstacle? digits depth v)).or
      (obstacleInEntries? digits (depth + 1) es)
termination_by structural _ es => es

end

-- What is made of a value to show it, unless the value cannot be shown.
def within {α : Type} (limits : Limits) (v : Value) (made : α) : Except ShowError α :=
  match v.obstacle? limits.digits limits.depth with
  | some e => .error e
  | Option.none => .ok made

end Value

-- A thing of the host's own that is no value, or a collection with such things in it. All that is
-- known of it is what comes of it when it is shown, written as a literal, made into the text of
-- its preview, taken for a number, or called. Not every thing can be taken for a number.
structure Object where
  kind : String
  shown : Except HostError String
  literal : Except HostError String
  previewed : Except HostError String
  whole : Option (Except HostError Int)
  index : Option (Except HostError Int)
  real : Option (Except HostError Binary64)
  call : Except HostError Value

-- What may be handed over to be logged.
inductive Datum where
  | value (v : Value)
  | object (o : Object)

namespace Datum

def kind : Datum → String
  | value v => v.kind.name
  | object o => o.kind

def shown? (limits : Limits) : Datum → Except ShowError String
  | value v => v.within limits v.shown
  | object o => o.shown.mapError .host

def literal? (limits : Limits) : Datum → Except ShowError String
  | value v => v.within limits v.literal
  | object o => o.literal.mapError .host

end Datum

end RoleAccess
