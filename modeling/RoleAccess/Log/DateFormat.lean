import RoleAccess.Log.Calendar

namespace RoleAccess.Moment

-- A number with zeros in front up to a width.
def padded (width : Nat) (n : Int) : String :=
  let digits := (toString n.natAbs).toList
  let sign := if n < 0 then ['-'] else []
  String.ofList (sign ++ List.replicate (width - sign.length - digits.length) '0' ++ digits)

def dayNames : List String :=
  ["Sunday", "Monday", "Tuesday", "Wednesday", "Thursday", "Friday", "Saturday"]

def monthNames : List String :=
  ["January", "February", "March", "April", "May", "June", "July", "August", "September",
    "October", "November", "December"]

def dayName (m : Moment) : String := dayNames.getD m.weekday "?"

def monthName (m : Moment) : String := monthNames.getD (m.month - 1) "?"

def short (name : String) : String := String.ofList (name.toList.take 3)

-- The hour on a dial.
def dialHour (m : Moment) : Nat := if m.hour % 12 = 0 then 12 else m.hour % 12

def half (m : Moment) : String := if m.hour < 12 then "AM" else "PM"

def yearOfCentury (year : Int) : Int := year.fmod 100

-- Weeks of the year that begin with a day of the week, numbered from the first such day on.
def weekFrom (m : Moment) (first : Nat) : Nat := (m.yearDay + 7 - (m.weekday + 7 - first) % 7) / 7

-- The year to which the week of the moment belongs, weeks beginning on Mondays, and the number of
-- the week in it. Both are told from the Thursday.
def weekDate (m : Moment) : Int × Nat :=
  let thursday := m.stamp.fdiv 86400 + 3 - (m.weekday + 6) % 7
  let (year, _, _, yearDay) := dateOfDay thursday
  (year, yearDay / 7 + 1)

def clock (m : Moment) : String :=
  padded 2 m.hour ++ ":" ++ padded 2 m.minute ++ ":" ++ padded 2 m.second

def shortDate (m : Moment) : String :=
  padded 2 m.month ++ "/" ++ padded 2 m.day ++ "/" ++ padded 2 (yearOfCentury m.year)

-- What a letter stands for: a number with the least count of its digits, which is filled up with
-- zeros or, if it is spaced, with spaces, or a word, with its capitals and with what becomes of
-- it when its case is to be changed, if anything does.
inductive Field where
  | number (digits : Nat) (spaced : Bool) (n : Int)
  | word (s capitals : String) (changed : Option String)

namespace Field

def capitals (s : String) : String := s.map Char.toUpper

def line (s : String) : Field := word s (capitals s) none

def name (s : String) : Field := word s (capitals s) (some (capitals s))

def ofNat (digits n : Nat) : Field := number digits false n

end Field

-- What the letters of a date format stand for.
def fields? (m : Moment) : Char → Option (List Field)
  | 'a' => some [.name (short m.dayName)]
  | 'A' => some [.name m.dayName]
  | 'b' | 'h' => some [.name (short m.monthName)]
  | 'B' => some [.name m.monthName]
  | 'c' =>
    let day := (if m.day < 10 then " " else "") ++ toString m.day
    some [.line (" ".intercalate
      [short m.dayName, short m.monthName, day, m.clock, toString m.year])]
  | 'C' => some [.number 1 false (m.year.fdiv 100)]
  | 'd' => some [.ofNat 2 m.day]
  | 'D' | 'x' => some [.line m.shortDate]
  | 'e' => some [.number 2 true m.day]
  | 'F' => some [.line (toString m.year ++ "-" ++ padded 2 m.month ++ "-" ++ padded 2 m.day)]
  | 'g' => some [.number 2 false (yearOfCentury m.weekDate.1)]
  | 'G' => some [.number 1 false m.weekDate.1]
  | 'H' => some [.ofNat 2 m.hour]
  | 'I' => some [.ofNat 2 m.dialHour]
  | 'j' => some [.ofNat 3 (m.yearDay + 1)]
  | 'k' => some [.number 2 true m.hour]
  | 'l' => some [.number 2 true m.dialHour]
  | 'm' => some [.ofNat 2 m.month]
  | 'M' => some [.ofNat 2 m.minute]
  | 'n' => some [.line "\n"]
  | 'p' => some [.word m.half m.half (some (m.half.map Char.toLower))]
  | 'P' => some [.word (m.half.map Char.toLower) (m.half.map Char.toLower) none]
  | 'r' =>
    some [.line (padded 2 m.dialHour ++ ":" ++ padded 2 m.minute ++ ":" ++ padded 2 m.second ++
      " " ++ m.half)]
  | 'R' => some [.line (padded 2 m.hour ++ ":" ++ padded 2 m.minute)]
  | 's' => some [.line (toString m.stamp)]
  | 'S' => some [.ofNat 2 m.second]
  | 't' => some [.line "\t"]
  | 'T' | 'X' => some [.line m.clock]
  | 'u' => some [.ofNat 1 ((m.weekday + 6) % 7 + 1)]
  | 'U' => some [.ofNat 2 (m.weekFrom 0)]
  | 'V' => some [.ofNat 2 m.weekDate.2]
  | 'w' => some [.ofNat 1 m.weekday]
  | 'W' => some [.ofNat 2 (m.weekFrom 1)]
  | 'y' => some [.number 2 false (yearOfCentury m.year)]
  | 'Y' => some [.number 1 false m.year]
  | 'z' => some [.line "+", .ofNat 4 0]
  | 'Z' => some [.line "UTC"]
  | '%' => some [.line "%"]
  | _ => none

-- How a letter behind a percent sign is to be written, as far as it has been read, with all that
-- has been read of it. `fill` is the sign for how to fill up.
structure Directive where
  read : List Char
  fill : Option Char
  capitals : Bool
  changed : Bool
  width : Option Nat
  variant : Option Char

namespace Directive

def opening : Directive := ⟨['%'], none, false, false, none, none⟩

-- Letters that have a variant for eras, and letters that have none for other digits. The variants
-- look like the letters themselves.
def eraLetters : List Char := "cCxXyYnprRstTuzZP%".toList

def plainLetters : List Char := "acxADFXY".toList

def admits (d : Directive) (c : Char) : Bool :=
  match d.variant with
  | none => true
  | some 'E' => c ∈ eraLetters
  | some _ => c ∉ plainLetters

def fillUp (d : Directive) (cs : List Char) : List Char :=
  let missing := d.width.getD 0 - cs.length
  List.replicate missing (if d.fill = some '0' then '0' else ' ') ++ cs

def write (d : Directive) : Field → List Char
  | .word s capitals changed =>
    let s := if d.capitals then capitals else s
    d.fillUp ((if d.changed then changed.getD s else s).toList)
  | .number digits spaced n =>
    let sign := if n < 0 then ['-'] else []
    let body := (toString n.natAbs).toList
    let missing := max digits (d.width.getD 0) - (sign.length + body.length)
    if d.fill = some '-' then d.fillUp (sign ++ body)
    else if d.fill = some '_' ∨ (spaced ∧ d.fill ≠ some '0') then
      List.replicate missing ' ' ++ sign ++ body
    else sign ++ List.replicate missing '0' ++ body

-- What stands for nothing is left as it is.
def leave (d : Directive) (cs : List Char) : List Char :=
  let cs := d.read ++ cs
  d.fillUp (if d.capitals then cs.map Char.toUpper else cs)

def finish (d : Directive) (m : Moment) (c : Char) : List Char :=
  match m.fields? c with
  | some fields => if d.admits c then fields.flatMap d.write else d.leave [c]
  | none => d.leave [c]

-- The directive with one more sign read, unless the sign is its letter. Widths beyond the room
-- there is make no difference.
def extend? (room : Nat) (d : Directive) (c : Char) : Option Directive :=
  let d := { d with read := d.read ++ [c] }
  if d.variant.isSome then none
  else if c = 'E' ∨ c = 'O' then some { d with variant := some c }
  else
    match d.width with
    | some n =>
      if c.isDigit then some { d with width := some (min room (10 * n + (c.toNat - '0'.toNat))) }
      else none
    | none =>
      if c = '_' ∨ c = '-' ∨ c = '0' then some { d with fill := some c }
      else if c = '^' then some { d with capitals := true }
      else if c = '#' then some { d with changed := true }
      else if c.isDigit then some { d with width := some (c.toNat - '0'.toNat) }
      else none

end Directive

-- A date format that is being filled in: what is written, and the directive that is being read.
structure Dating where
  written : List Char
  directive : Option Directive

namespace Dating

def step (room : Nat) (m : Moment) (d : Dating) (c : Char) : Dating :=
  match d.directive with
  | none =>
    if c = '%' then { d with directive := some .opening }
    else { d with written := d.written ++ [c] }
  | some directive =>
    match directive.extend? room c with
    | some longer => { d with directive := some longer }
    | none => ⟨d.written ++ directive.finish m c, none⟩

def finish (d : Dating) : List Char :=
  d.written ++ d.directive.elim [] fun directive => directive.leave []

end Dating

-- How much room there is for a date: at first a certain amount, and then twice as much and so on
-- until there are 256 places for each character of the format.
def room (pattern : List Char) : Nat := 1024 * ((pattern.length + 3) / 4).nextPowerOfTwo

-- Fills a date format in. Only years of 32 bits can be written. A date for which there is no room
-- is left out.
def format (m : Moment) (pattern : String) : Except MomentError String :=
  let cs := pattern.toList
  if Int.pow 2 31 ≤ m.year then .error .yearTooGreat
  else if '\x00' ∈ cs then .error .nullCharacter
  else
    let written := (cs.foldl (Dating.step (room cs) m) ⟨[], none⟩).finish
    .ok (if written.length < room cs then String.ofList written else "")

end RoleAccess.Moment
