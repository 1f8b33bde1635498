import RoleAccess.Number.Shortest

namespace RoleAccess

-- The whole number nearest to a fraction, of two equally near ones the even one.
def nearestWhole (num den : Nat) : Nat :=
  let whole := num / den
  let rest := num % den
  if den < 2 * rest ∨ (2 * rest = den ∧ whole % 2 = 1) then whole + 1 else whole

namespace Binary64

-- The number of the format that is nearest to a whole number, unless that one is too great. If
-- the rounded significand has one bit too many, the carry goes into the exponent.
def ofInt? (n : Int) : Option Binary64 :=
  let size := n.natAbs
  let power := Nat.log2 size
  let significand :=
    if power ≤ 52 then size * Nat.pow 2 (52 - power)
    else nearestWhole size (Nat.pow 2 (power - 52))
  let bits := if size = 0 then 0 else (power + 1022) * Nat.pow 2 52 + significand
  if bits < 2047 * Nat.pow 2 52 then
    some ⟨UInt64.ofNat (bits + if n < 0 then Nat.pow 2 63 else 0)⟩
  else none

-- How many of the units of the last of so many decimal places a finite number has, sign apart.
def roundedAt (x : Binary64) (places : Int) : Nat :=
  let (num, den) := scaled x.absUnits places
  nearestWhole num (unitsOfOne * den)

-- So many significant digits, and the power of ten of the first one. Rounding up may make one
-- digit more.
def significant (x : Binary64) (count : Nat) : List Char × Int :=
  if x.absUnits = 0 then (List.replicate count '0', 0)
  else
    let power := x.leading - 1
    let digits := Nat.toDigits 10 (x.roundedAt (count - 1 - power))
    if count < digits.length then (digits.take count, power + 1) else (digits, power)

end Binary64

namespace Decimal

-- How a number that has been rounded is written. With `point` the point stays where no digit is
-- behind it, and so do the zeros at the end of the general form.
structure Form where
  places : Nat
  point : Bool

namespace Form

def fraction (form : Form) (digits : List Char) : List Char :=
  if digits = [] ∧ ¬ form.point then [] else '.' :: digits

-- All digits up to the last place.
def fixed (form : Form) (x : Binary64) : List Char :=
  let digits := Nat.toDigits 10 (x.roundedAt form.places)
  let digits := List.replicate (form.places + 1 - digits.length) '0' ++ digits
  let width := digits.length - form.places
  digits.take width ++ form.fraction (digits.drop width)

-- One digit in front of the point and the power of ten at the end, in two digits at least.
def powered (form : Form) (digits : List Char) (power : Int) : List Char :=
  let sign := if power < 0 then '-' else '+'
  let size := Nat.toDigits 10 power.natAbs
  digits.take 1 ++ form.fraction (digits.drop 1) ++
    'e' :: sign :: List.replicate (2 - size.length) '0' ++ size

def scientific (form : Form) (x : Binary64) : List Char :=
  let (digits, power) := x.significant (form.places + 1)
  form.powered digits power

def withoutZeros (form : Form) (digits : List Char) : List Char :=
  if form.point then digits else (digits.reverse.dropWhile (· = '0')).reverse

-- So many significant digits, one at least, with the power of ten if the first digit stands far
-- from the point.
def general (form : Form) (x : Binary64) : List Char :=
  let count := max 1 form.places
  let (digits, power) := x.significant count
  if power < -4 ∨ count ≤ power then
    form.powered (digits.take 1 ++ form.withoutZeros (digits.drop 1)) power
  else if power < 0 then
    let zeros := List.replicate (power.natAbs - 1) '0'
    '0' :: form.fraction (form.withoutZeros (zeros ++ digits))
  else
    let width := power.toNat + 1
    digits.take width ++ form.fraction (form.withoutZeros (digits.drop width))

end Form

end Decimal

end RoleAccess
