import RoleAccess.Value

namespace RoleAccess.Value

-- The number a value stands for when it is compared. Truth values are one and zero.
def magnitude? : Value → Option Magnitude
  | bool b => some (.ofInt (if b then 1 else 0))
  | int n => some (.ofInt n)
  | float x => x.magnitude?
  | _ => Option.none

-- Values without parts are equal as numbers, as texts or as bytes.
def plainEqual (a b : Value) : Bool :=
  match a, b with
  | none, none => true
  | bytes x, bytes y => x = y
  | _, _ =>
    match a.magnitude?, b.magnitude? with
    | some x, some y => x = y
    | _, _ =>
      match a.text?, b.text? with
      | some x, some y => x = y
      | _, _ => false

-- Two roles with the same fields, the order of resources left aside.
def roleEqual (r s : Role) : Bool :=
  r.name = s.name ∧ r.description = s.description ∧ r.inherits = s.inherits ∧
    (∀ e ∈ r.permissions.entries, s.permissions.get? e.1 = some e.2) ∧
    (∀ e ∈ s.permissions.entries, r.permissions.get? e.1 = some e.2)

mutual

-- Equality of contents. Numbers are compared exactly whatever their kind, lists and tuples
-- item by item, sets and maps without regard to order.
def equal : Value → Value → Bool
  | list xs, list ys => equalItems xs ys
  | tuple xs, tuple ys => equalItems xs ys
  | set xs, set ys => itemsWithin xs ys && ys.all fun y => itemAmong xs y
  | map es, map fs => entriesWithin es fs && fs.all fun f => entryAmong es f
  | role r, role s => roleEqual r s
  | a, b => plainEqual a b
termination_by structural a => a

def equalItems : List Value → List Value → Bool
  | [], [] => true
  | x :: xs, y :: ys => equal x y && equalItems xs ys
  | _, _ => false
termination_by structural xs => xs

def itemsWithin : List Value → List Value → Bool
  | [], _ => true
  | x :: xs, ys => (ys.any fun y => equal x y) && itemsWithin xs ys
termination_by structural xs => xs

def itemAmong : List Value → Value → Bool
  | [], _ => false
  | x :: xs, y => equal x y || itemAmong xs y
termination_by structural xs => xs

def entriesWithin : List (Value × Value) → List (Value × Value) → Bool
  | [], _ => true
  | (k, v) :: es, fs => (fs.any fun f => equal k f.1 && equal v f.2) && entriesWithin es fs
termination_by structural es => es

def entryAmong : List (Value × Value) → Value × Value → Bool
  | [], _ => false
  | (k, v) :: es, f => (equal k f.1 && equal v f.2) || entryAmong es f
termination_by structural es => es

end

-- Two ids are the same if they are of one kind and equal. The kind of what lies inside does
-- not matter.
def sameId (a b : Value) : Bool := a.kind = b.kind && equal a b

-- A map in which equal keys share the first one's place and the last one's value.
def insertEntry {α : Type} (k : Value) (v : α) : List (Value × α) → List (Value × α)
  | [] => [(k, v)]
  | (j, w) :: es => if equal j k then (j, v) :: es else (j, w) :: insertEntry k v es

def mapOfList (entries : List (Value × Value)) : Value :=
  map (entries.foldl (fun es e => insertEntry e.1 e.2 es) [])

mutual

-- The part because of which a value cannot be looked up by, if there is one.
def unhashable? : Value → Option Kind
  | list _ => some .list
  | set _ => some .set
  | map _ => some .map
  | role _ => some .role
  | tuple items => unhashableItem? items
  | _ => Option.none
termination_by structural v => v

def unhashableItem? : List Value → Option Kind
  | [] => Option.none
  | v :: vs => (unhashable? v).or (unhashableItem? vs)
termination_by structural vs => vs

end

end RoleAccess.Value
