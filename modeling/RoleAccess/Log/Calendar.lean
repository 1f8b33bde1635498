import RoleAccess.Value

namespace RoleAccess

-- Why a value does not tell a moment, or why a moment cannot be written.
inductive MomentError where
  | notNumber (kind : Kind)
  | undefined
  | tooFar
  | yearTooFar
  | yearTooGreat
  | nullCharacter
  deriving DecidableEq

namespace MomentError

def message : MomentError → String
  | notNumber kind => s!"'{kind.name}' object cannot be interpreted as an integer"
  | undefined => "Invalid value NaN (not a number)"
  | tooFar => "timestamp out of range for platform time_t"
  | yearTooFar => "[Errno 75] Value too large for defined data type"
  | yearTooGreat => "signed integer is greater than maximum"
  | nullCharacter => "embedded null character"

end MomentError

-- A moment in universal time: the seconds since the beginning of 1970, and the same by the
-- calendar. Days of the week are counted from a Sunday, and days of the year from its first one.
structure Moment where
  stamp : Int
  year : Int
  month : Nat
  day : Nat
  hour : Nat
  minute : Nat
  second : Nat
  weekday : Nat
  yearDay : Nat
  deriving DecidableEq, Repr

namespace Moment

-- The date of a day counted from the beginning of 1970, with the day of the year. Years are taken
-- to begin in March, so that a leap day is the last day of its year, and come in eras of 400.
def dateOfDay (days : Int) : Int × Nat × Nat × Nat :=
  let shifted := days + 719468
  let era := shifted.fdiv 146097
  let dayOfEra := (shifted - era * 146097).toNat
  let yearOfEra :=
    (dayOfEra - dayOfEra / 1460 + dayOfEra / 36524 - dayOfEra / 146096) / 365
  let dayFromMarch := dayOfEra - (365 * yearOfEra + yearOfEra / 4 - yearOfEra / 100)
  let monthFromMarch := (5 * dayFromMarch + 2) / 153
  let day := dayFromMarch - (153 * monthFromMarch + 2) / 5 + 1
  let month := if monthFromMarch < 10 then monthFromMarch + 3 else monthFromMarch - 9
  let year := era * 400 + yearOfEra + (if month ≤ 2 then 1 else 0)
  let leapDays := if yearOfEra % 4 = 0 ∧ (yearOfEra % 100 ≠ 0 ∨ yearOfEra = 0) then 1 else 0
  let yearDay := if month ≤ 2 then dayFromMarch - 306 else dayFromMarch + 59 + leapDays
  (year, month, day, yearDay)

-- The moment so many seconds after the beginning of 1970, which was a Thursday.
def ofSeconds (seconds : Int) : Moment :=
  let days := seconds.fdiv 86400
  let rest := (seconds - days * 86400).toNat
  let (year, month, day, yearDay) := dateOfDay days
  { stamp := seconds
    year
    month
    day
    hour := rest / 3600
    minute := rest % 3600 / 60
    second := rest % 60
    weekday := ((days + 4).fmod 7).toNat
    yearDay }

-- Seconds have to fit in 64 bits, and years counted from 1900 in 32 bits.
def ofSeconds? (seconds : Int) : Except MomentError Moment :=
  if ¬ isWord seconds then .error .tooFar
  else
    let moment := ofSeconds seconds
    if -Int.pow 2 31 ≤ moment.year - 1900 ∧ moment.year - 1900 < Int.pow 2 31 then .ok moment
    else .error .yearTooFar

-- Whole seconds in the binary format. The bounds are compared in that format too, in which the
-- greatest number of 64 bits is rounded up: 2 ^ 63 passes and lies in a year that is too far.
def ofFloor? (seconds : Int) : Except MomentError Moment :=
  if seconds = Int.pow 2 63 then .error .yearTooFar else ofSeconds? seconds

-- The moment a value tells in seconds, parts of a second being dropped. Nothing stands for the
-- beginning.
def ofValue? : Value → Except MomentError Moment
  | .none => ofSeconds? 0
  | .bool b => ofSeconds? (if b then 1 else 0)
  | .int n => ofSeconds? n
  | .float x =>
    if x.isNaN then .error .undefined
    else if x.isInfinite then .error .tooFar
    else ofFloor? x.floor
  | v => .error (.notNumber v.kind)

end Moment

end RoleAccess
