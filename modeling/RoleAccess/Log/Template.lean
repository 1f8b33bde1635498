import RoleAccess.Number.Rounded
import RoleAccess.Value.Datum
import RoleAccess.Value.Part

namespace RoleAccess

-- Why the places of a template cannot be filled.
inductive TemplateError where
  | tooManyArguments
  | tooFewArguments
  | incomplete
  | incompleteName
  | notNamed
  | unknownPlace (c : Char) (position : Nat)
  | notWidth
  | widthTooGreat (written : Bool)
  | precisionTooGreat (written : Bool)
  | tooPrecise
  | notNumber (place : Char) (kind : String)
  | notWhole (place : Char) (kind : String)
  | notReal (kind : String)
  | notFinite (isNaN : Bool)
  | tooGreat
  | notCharacter
  | noSuchCharacter
  | part (e : PartError)
  | shown (e : ShowError)

namespace TemplateError

def message : TemplateError → String
  | tooManyArguments => "not all arguments converted during string formatting"
  | tooFewArguments => "not enough arguments for format string"
  | incomplete => "incomplete format"
  | incompleteName => "incomplete format key"
  | notNamed => "format requires a mapping"
  | unknownPlace c position =>
    let code := String.ofList (Nat.toDigits 16 c.toNat)
    -- only ASCII characters are shown
    let shown := if 31 ≤ c.toNat ∧ c.toNat < 127 then c else '?'
    s!"unsupported format character '{shown}' (0x{code}) at index {position}"
  | notWidth => "* wants int"
  | widthTooGreat true => "width too big"
  | widthTooGreat false => "Python int too large to convert to C ssize_t"
  | precisionTooGreat true => "precision too big"
  | precisionTooGreat false => "Python int too large to convert to C int"
  | tooPrecise => "precision too large"
  | notNumber place kind => s!"%{place} format: a real number is required, not {kind}"
  | notWhole place kind => s!"%{place} format: an integer is required, not {kind}"
  | notReal kind => s!"must be real number, not {kind}"
  | notFinite true => "cannot convert float NaN to integer"
  | notFinite false => "cannot convert float infinity to integer"
  | tooGreat => "int too large to convert to float"
  | notCharacter => "%c requires int or char"
  | noSuchCharacter => "%c arg not in range(0x110000)"
  | part e => e.message
  | shown e => e.message

end TemplateError

namespace Datum

-- What a datum gives where it is taken for a number of some kind, if it can be.
def asNumber {α : Type} (ofValue? : Value → Option (Except TemplateError α))
    (ofObject? : Object → Option (Except HostError α)) (objection : TemplateError) :
    Datum → Except TemplateError α
  | value v => (ofValue? v).getD (.error objection)
  | object o =>
    match ofObject? o with
    | some x => x.mapError fun e => .shown (.host e)
    | none => .error objection

-- Truth values count as zero and one.
def index? (objection : TemplateError) : Datum → Except TemplateError Int :=
  asNumber (fun v => v.place?.map .ok) (·.index) objection

-- What stands behind the point is dropped.
def whole? (place : Char) (d : Datum) : Except TemplateError Int :=
  asNumber
    (fun
      | .float x =>
        some (if x.isNaN then .error (.notFinite true)
          else if x.isInfinite then .error (.notFinite false)
          else .ok x.truncate)
      | v => v.place?.map .ok)
    (·.whole) (.notNumber place d.kind) d

def real? (d : Datum) : Except TemplateError Binary64 :=
  asNumber
    (fun
      | .float x => some (.ok x)
      | v => v.place?.map fun n => (Binary64.ofInt? n).elim (.error .tooGreat) .ok)
    (·.real) (.notReal d.kind) d

-- A character is given as a text or by its code point.
def character? (d : Datum) : Except TemplateError Char := do
  match d with
  | value (.text s) =>
    match s.toList with
    | [c] => return c
    | _ => throw .notCharacter
  | d =>
    let n ← d.index? .notCharacter
    if 0 ≤ n ∧ n < 0x110000 then return Char.ofNat n.toNat else throw .noSuchCharacter

end Datum

namespace Template

-- How a place is to be filled, as far as it has been read.
structure Place where
  toLeft : Bool
  plus : Bool
  blank : Bool
  marked : Bool
  zeros : Bool
  width : Option Nat
  precision : Option Nat

namespace Place

def empty : Place := ⟨false, false, false, false, false, none, none⟩

-- The place with a flag set, if the character is one.
def flag? (p : Place) : Char → Option Place
  | '-' => some { p with toLeft := true }
  | '+' => some { p with plus := true }
  | ' ' => some { p with blank := true }
  | '#' => some { p with marked := true }
  | '0' => some { p with zeros := true }
  | _ => none

-- Fills up to the width: on the right, in front of all, or by zeros behind the sign and the mark.
def pad (p : Place) (zeros : Bool) (sign mark body : List Char) : List Char :=
  let missing := p.width.getD 0 - (sign.length + mark.length + body.length)
  if p.toLeft then sign ++ mark ++ body ++ List.replicate missing ' '
  else if zeros then sign ++ mark ++ List.replicate missing '0' ++ body
  else List.replicate missing ' ' ++ sign ++ mark ++ body

def sign (p : Place) (negative : Bool) : List Char :=
  if negative then ['-'] else if p.plus then ['+'] else if p.blank then [' '] else []

-- A text, cut to the precision.
def text (p : Place) (s : String) : List Char :=
  p.pad false [] [] (p.precision.elim s.toList fun count => s.toList.take count)

-- The greatest precision that whole numbers can be written with.
def greatestPrecision : Nat := Nat.pow 2 31 - 4

-- A whole number to some base, with as many digits as the precision asks for.
def whole? (p : Place) (base : Nat) (mark : List Char) (n : Int) :
    Except TemplateError (List Char) :=
  let digits := Nat.toDigits base n.natAbs
  let zeros := List.replicate (p.precision.getD 0 - digits.length) '0'
  if greatestPrecision < p.precision.getD 0 then .error .tooPrecise
  else .ok (p.pad p.zeros (p.sign (n < 0)) (if p.marked then mark else []) (zeros ++ digits))

-- A number of the binary format in one of the three forms, with six places by default.
def real (p : Place) (form : Char) (x : Binary64) : List Char :=
  let rounded : Decimal.Form := ⟨p.precision.getD 6, p.marked⟩
  let body :=
    if x.isNaN then ['n', 'a', 'n']
    else if x.isInfinite then ['i', 'n', 'f']
    else if form = 'e' then rounded.scientific x
    else if form = 'f' then rounded.fixed x
    else rounded.general x
  p.pad p.zeros (p.sign (x.negative && !x.isNaN)) [] body

-- What an argument looks like in the place, by the letter that ends the place. Of a place with a
-- capital letter all letters are capitals.
def write (limits : Limits) (p : Place) (letter : Char) (position : Nat) (d : Datum) :
    Except TemplateError (List Char) :=
  match letter with
  | 's' => ((d.shown? limits).map p.text).mapError .shown
  | 'r' => ((d.literal? limits).map p.text).mapError .shown
  | 'a' => ((d.literal? limits).map fun s => p.text (Text.escaped s)).mapError .shown
  | 'c' => d.character?.map fun c => p.pad false [] [] [c]
  | 'd' | 'i' | 'u' => do
    let n ← d.whole? letter
    let cs ← p.whole? 10 [] n
    ((Value.int n).within limits cs).mapError .shown
  | 'o' => (d.index? (.notWhole letter d.kind)).bind (p.whole? 8 ['0', 'o'])
  | 'x' => (d.index? (.notWhole letter d.kind)).bind (p.whole? 16 ['0', 'x'])
  | 'X' =>
    ((d.index? (.notWhole letter d.kind)).bind (p.whole? 16 ['0', 'x'])).map (·.map Char.toUpper)
  | 'e' | 'f' | 'g' => d.real?.map (p.real letter)
  | 'E' | 'F' | 'G' => d.real?.map fun x => (p.real letter.toLower x).map Char.toUpper
  | _ => .error (.unknownPlace letter position)

end Place

-- What a template is filled from: things one after the other, and things by name where there are
-- names. `given` is whether there is anything at all.
structure Arguments where
  given : Bool
  items : List Datum
  named? : Option (String → Except TemplateError Datum)

namespace Arguments

-- A tuple holds arguments. Anything else is a single one, and serves for places that are named if
-- it holds parts under keys.
def ofValue : Value → Arguments
  | .tuple items => ⟨!items.isEmpty, items.map .value, none⟩
  | v =>
    let entry name := ((v.part (.text name)).map Datum.value).mapError .part
    let named? := match v with
      | .map _ | .list _ | .bytes _ => some entry
      | _ => none
    ⟨v.truthy, [.value v], named?⟩

end Arguments

-- Where in a template the reader is: in plain text, right behind a percent sign, in a name with so
-- many open brackets, at the flags of a place, in its width, behind a width that was taken from
-- the arguments, right behind the point, in the precision, behind one that was taken, or behind a
-- letter for the size.
inductive Stage where
  | plain
  | opening
  | name (entry : String → Except TemplateError Datum) (depth : Nat) (read : List Char)
  | flags (p : Place)
  | width (p : Place) (n : Nat)
  | widthTaken (p : Place)
  | point (p : Place)
  | precision (p : Place) (n : Nat)
  | precisionTaken (p : Place)
  | sized (p : Place)

-- A template that is being filled: what has been written, how many characters have been read, and
-- what arguments are left.
structure Filling where
  written : List Char
  position : Nat
  left : List Datum
  stage : Stage

namespace Filling

-- The bounds of widths and precisions.
def greatestWidth : Nat := Nat.pow 2 63 - 1

def greatestPrecision : Nat := Nat.pow 2 31 - 1

def digit? (c : Char) : Option Nat := if c.isDigit then some (c.toNat - '0'.toNat) else none

-- One more digit of a number that must not be greater than a bound.
def addDigit (bound n digit : Nat) (objection : TemplateError) : Except TemplateError Nat :=
  if (bound - digit) / 10 < n then .error objection else .ok (10 * n + digit)

def put (f : Filling) (cs : List Char) : Filling :=
  { f with written := f.written ++ cs, stage := .plain }

-- The next argument, and what is left then.
def next (f : Filling) : Except TemplateError (Datum × Filling) :=
  match f.left with
  | [] => .error .tooFewArguments
  | d :: left => .ok (d, { f with left })

-- A width or a precision that is the next argument.
def takeNumber (f : Filling) : Except TemplateError (Int × Filling) := do
  let (d, f) ← f.next
  match d with
  | .value v =>
    match v.place? with
    | some n => return (n, f)
    | none => throw .notWidth
  | .object _ => throw .notWidth

-- A width below zero asks for filling up on the right.
def takeWidth (f : Filling) (p : Place) : Except TemplateError Filling := do
  let (n, f) ← f.takeNumber
  if ¬ isWord n then throw (.widthTooGreat false)
  return { f with
    stage := .widthTaken { p with width := some n.natAbs, toLeft := p.toLeft || n < 0 } }

-- A precision below zero counts as none.
def takePrecision (f : Filling) (p : Place) : Except TemplateError Filling := do
  let (n, f) ← f.takeNumber
  if n < -Int.pow 2 31 ∨ Int.pow 2 31 ≤ n then throw (.precisionTooGreat false)
  return { f with stage := .precisionTaken { p with precision := some n.toNat } }

def write (limits : Limits) (f : Filling) (p : Place) (letter : Char) :
    Except TemplateError Filling := do
  let (d, f) ← f.next
  return f.put (← p.write limits letter f.position d)

-- One letter for the size may stand in front of the last one, and says nothing.
def behindPrecision (limits : Limits) (f : Filling) (p : Place) (c : Char) :
    Except TemplateError Filling :=
  if c ∈ ['h', 'l', 'L'] then .ok { f with stage := .sized p } else f.write limits p c

def behindWidth (limits : Limits) (f : Filling) (p : Place) (c : Char) :
    Except TemplateError Filling :=
  if c = '.' then .ok { f with stage := .point p } else f.behindPrecision limits p c

def atFlags (limits : Limits) (f : Filling) (p : Place) (c : Char) :
    Except TemplateError Filling :=
  match p.flag? c, digit? c with
  | some p, _ => .ok { f with stage := .flags p }
  | none, some digit => .ok { f with stage := .width p digit }
  | none, none => if c = '*' then f.takeWidth p else f.behindWidth limits p c

-- Brackets inside a name have to be closed before it ends. Then the argument of the name is the
-- only one that is left.
def inName (f : Filling) (entry : String → Except TemplateError Datum) (depth : Nat)
    (read : List Char) (c : Char) : Except TemplateError Filling :=
  match c, depth with
  | ')', 0 => do
    let d ← entry (String.ofList read)
    return { f with left := [d], stage := .flags .empty }
  | ')', depth + 1 => .ok { f with stage := .name entry depth (read ++ [c]) }
  | '(', depth => .ok { f with stage := .name entry (depth + 1) (read ++ [c]) }
  | c, depth => .ok { f with stage := .name entry depth (read ++ [c]) }

-- Reads one character.
def read (limits : Limits) (named? : Option (String → Except TemplateError Datum)) (f : Filling)
    (c : Char) : Except TemplateError Filling :=
  match f.stage with
  | .plain => if c = '%' then .ok { f with stage := .opening } else .ok (f.put [c])
  | .opening =>
    match c, named? with
    | '%', _ => .ok (f.put [c])
    | '(', some entry => .ok { f with stage := .name entry 0 [] }
    | '(', none => .error .notNamed
    | c, _ => f.atFlags limits .empty c
  | .name entry depth read => f.inName entry depth read c
  | .flags p => f.atFlags limits p c
  | .width p n =>
    match digit? c with
    | some digit => do
      let n ← addDigit greatestWidth n digit (.widthTooGreat true)
      return { f with stage := .width p n }
    | none => f.behindWidth limits { p with width := some n } c
  | .widthTaken p => f.behindWidth limits p c
  | .point p =>
    match digit? c with
    | some digit => .ok { f with stage := .precision p digit }
    | none =>
      if c = '*' then f.takePrecision p
      else f.behindPrecision limits { p with precision := some 0 } c
  | .precision p n =>
    match digit? c with
    | some digit => do
      let n ← addDigit greatestPrecision n digit (.precisionTooGreat true)
      return { f with stage := .precision p n }
    | none => f.behindPrecision limits { p with precision := some n } c
  | .precisionTaken p => f.behindPrecision limits p c
  | .sized p => f.write limits p c

def step (limits : Limits) (named? : Option (String → Except TemplateError Datum)) (f : Filling)
    (c : Char) : Except TemplateError Filling :=
  (f.read limits named? c).map fun g => { g with position := f.position + 1 }

-- A template must not end in the middle of a place. Arguments may be left over only where there
-- are names.
def finish (mayLeaveOver : Bool) (f : Filling) : Except TemplateError String :=
  match f.stage with
  | .plain =>
    if f.left.isEmpty ∨ mayLeaveOver then .ok (String.ofList f.written)
    else .error .tooManyArguments
  | .name _ _ _ => .error .incompleteName
  | _ => .error .incomplete

end Filling

-- What arguments are to a template: a tuple of them, or the only one alone if it is a map with
-- entries, which serves for places that are named.
def argsOf : List Value → Value
  | [.map (e :: es)] => .map (e :: es)
  | args => .tuple args

-- Puts arguments in the places of a template, from the left. If there is nothing in them the
-- template stays as it is.
def fill (limits : Limits) (template : String) (args : Arguments) :
    Except TemplateError String := do
  if ¬ args.given then return template
  let filling ← template.toList.foldlM (Filling.step limits args.named?) ⟨[], 0, args.items, .plain⟩
  filling.finish args.named?.isSome

end Template

end RoleAccess
