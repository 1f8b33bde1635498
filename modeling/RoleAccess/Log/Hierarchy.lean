import RoleAccess.Value

namespace RoleAccess

-- A logger under the name it was first asked for by. Level zero stands for none of its own.
structure Logger where
  name : Value
  level : Nat

-- The loggers of a process in the order in which they were first asked for, with the root logger
-- above them all. What was decided on a level is kept until some level is set again.
structure Hierarchy where
  rootLevel : Nat
  loggers : Table String Logger
  decided : Table (String × Level) Bool

namespace Hierarchy

def rootName : String := "root"

-- The root logger goes by two names.
def isRoot (name : String) : Bool := name = "" ∨ name = rootName

def ofRootLevel (level : Nat) : Hierarchy := ⟨level, .empty, .empty⟩

-- A logger as it is set up when it is asked for the first time.
def orNew (name : Value) (held : Option Logger) : Logger := held.getD ⟨name, 0⟩

-- Asks for a logger. `key` is the text that its name reads as.
def ask (h : Hierarchy) (key : String) (name : Value) : Hierarchy :=
  if isRoot key then h else { h with loggers := h.loggers.alter key (orNew name) }

-- The name that a logger's records bear.
def nameOf (h : Hierarchy) (key : String) : Value :=
  if isRoot key then .text rootName else (orNew (.text key) (h.loggers.get? key)).name

-- A logger's own level, zero if it has none.
def ownLevel (h : Hierarchy) (key : String) : Nat :=
  if isRoot key then h.rootLevel else (orNew (.text key) (h.loggers.get? key)).level

def setLevel (h : Hierarchy) (key : String) (name : Value) (level : Nat) : Hierarchy :=
  if isRoot key then { h with rootLevel := level, decided := .empty }
  else
    let set held := { orNew name held with level }
    { h with loggers := h.loggers.alter key set, decided := .empty }

-- The starts of a dotted name that end in front of a dot, the longest first, all read from the
-- end. Of dots in a row every second one is passed over.
def startsFromEnd : List Char → List (List Char)
  | [] => []
  | '.' :: c :: cs => (c :: cs) :: startsFromEnd cs
  | _ :: cs => startsFromEnd cs

theorem length_lt_of_mem_startsFromEnd {start cs : List Char} (h : start ∈ startsFromEnd cs) :
    start.length < cs.length := by
  fun_induction startsFromEnd cs with
  | case1 => simp at h
  | case2 c cs ih =>
    rcases List.mem_cons.mp h with rfl | h
    · simp
    · have hlt := ih h
      simp only [List.length_cons]
      omega
  | case3 c cs _ ih =>
    have hlt := ih h
    simp only [List.length_cons]
    omega

-- The names above a dotted name, the nearest one first.
def above (key : String) : List String :=
  (startsFromEnd key.toList.reverse).map fun start => String.ofList start.reverse

theorem length_lt_of_mem_above {upper key : String} (h : upper ∈ above key) :
    upper.length < key.length := by
  obtain ⟨start, hstart, rfl⟩ := List.mem_map.mp h
  have hlt := length_lt_of_mem_startsFromEnd hstart
  simpa [← String.length_toList] using hlt

-- Whether a logger of a name above has taken another one over. One that came later takes over those
-- that were there before it, except when the root's name begins with its own: those stay with
-- the root.
def hasTakenOver (h : Hierarchy) (key upper : String) : Bool :=
  let earlier := h.loggers.keys.takeWhile (· ≠ key)
  h.loggers.contains upper &&
    (!upper.toList.isPrefixOf rootName.toList || earlier.contains upper)

-- The logger right above another one, if it is not the root.
def parent? (h : Hierarchy) (key : String) : Option String := (above key).find? (h.hasTakenOver key)

-- A logger without a level of its own has that of the nearest logger above it that has one.
def effectiveLevel (h : Hierarchy) (key : String) : Nat :=
  let own := h.ownLevel key
  if own ≠ 0 then own
  else
    match hupper : h.parent? key with
    | some upper =>
      have := length_lt_of_mem_above (List.mem_of_find?_eq_some hupper)
      h.effectiveLevel upper
    | none => h.rootLevel
termination_by key.length

-- Whether a logger lets a level through. A decision once made is not made anew.
def letsThrough (h : Hierarchy) (key : String) (level : Level) : Bool × Hierarchy :=
  let question := (if isRoot key then rootName else key, level)
  match h.decided.get? question with
  | some enabled => (enabled, h)
  | none =>
    let enabled : Bool := h.effectiveLevel key ≤ level.number
    (enabled, { h with decided := h.decided.put question enabled })

end Hierarchy

end RoleAccess
