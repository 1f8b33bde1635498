import RoleAccess.Number.Binary64

namespace RoleAccess

-- A decimal number `digits * 10 ^ exponent`.
structure Decimal where
  digits : Nat
  exponent : Int
  deriving DecidableEq, Repr

namespace Decimal

-- Drops the zeros at the end of the digits.
def trim (d : Decimal) : Decimal :=
  if d.digits ≠ 0 ∧ d.digits % 10 = 0 then trim ⟨d.digits / 10, d.exponent + 1⟩ else d
termination_by d.digits
decreasing_by omega

end Decimal

namespace Binary64

-- `n * 10 ^ exponent` as a fraction of natural numbers.
def scaled (n : Nat) (exponent : Int) : Nat × Nat :=
  (n * Nat.pow 10 exponent.toNat, Nat.pow 10 (-exponent).toNat)

-- A decimal reads back as `x` if it lies no further from it than half way to its neighbours.
-- Below a power of two the neighbour is only half as far. The ends of the interval belong to
-- it when the significand is even. All is counted in quarters of a unit.
def readsBack (x : Binary64) (d : Decimal) : Bool :=
  let step := Nat.pow 2 x.scale
  let low :=
    4 * x.absUnits - (if x.significand = Nat.pow 2 52 ∧ 0 < x.scale then step else 2 * step)
  let high := 4 * x.absUnits + 2 * step
  let (num, den) := scaled (4 * unitsOfOne * d.digits) d.exponent
  if x.significand % 2 = 0 then low * den ≤ num ∧ num ≤ high * den
  else low * den < num ∧ num < high * den

-- Of the two neighbours of `x` on the grid of multiples of `10 ^ exponent`, the one that reads
-- back; if both do, the nearer one, and of two equally near ones the even one.
def onGrid? (x : Binary64) (exponent : Int) : Option Decimal :=
  let (num, den) := scaled x.absUnits (-exponent)
  let one := unitsOfOne * den
  let below : Decimal := ⟨num / one, exponent⟩
  let above : Decimal := ⟨num / one + 1, exponent⟩
  match x.readsBack below, x.readsBack above with
  | false, false => none
  | true, false => some below
  | false, true => some above
  | true, true =>
    let rest := num % one
    if 2 * rest < one ∨ (2 * rest = one ∧ below.digits % 2 = 0) then some below else some above

-- How many decimal digits stand before the point; for numbers below one, minus the count of
-- zeros behind it. The factor makes every number of the format larger than one.
def leading (x : Binary64) : Int :=
  ((Nat.toDigits 10 (x.absUnits * Nat.pow 10 342 / unitsOfOne)).length : Int) - 342

-- Tries grids with more and more digits.
def firstOnGrid? (x : Binary64) : Option Decimal :=
  (List.range' 1 17).findSome? fun (count : Nat) => x.onGrid? (x.leading - count)

-- The value of `x` itself, as every unit is a decimal of 1074 places.
def exact (x : Binary64) : Decimal := ⟨x.absUnits * Nat.pow 5 1074, -1074⟩

-- The decimal with the fewest digits that reads back as the finite number `x`, sign apart.
-- Seventeen digits are always enough, so the exact value is there for safety only.
def shortest (x : Binary64) : Decimal :=
  if x.absUnits = 0 then ⟨0, 0⟩ else (x.firstOnGrid?.getD x.exact).trim

end Binary64

end RoleAccess
