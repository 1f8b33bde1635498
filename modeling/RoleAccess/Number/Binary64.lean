namespace RoleAccess

-- Whether an integer fits in 64 bits with a sign.
def isWord (n : Int) : Bool := -Int.pow 2 63 ≤ n ∧ n < Int.pow 2 63

-- A number in the 64-bit binary format: a sign, eleven bits of exponent and 52 of fraction.
structure Binary64 where
  bits : UInt64
  deriving DecidableEq

-- The value of a number that may be compared. Every finite number of the format is a whole
-- number of units of 2^-1074, so comparing units compares exactly.
inductive Magnitude where
  | units (n : Int)
  | infinite (negative : Bool)
  deriving DecidableEq

namespace Binary64

def negative (x : Binary64) : Bool := x.bits.toNat / Nat.pow 2 63 = 1

def exponentField (x : Binary64) : Nat := x.bits.toNat / Nat.pow 2 52 % Nat.pow 2 11

def fractionField (x : Binary64) : Nat := x.bits.toNat % Nat.pow 2 52

def isNaN (x : Binary64) : Bool := x.exponentField = 2047 ∧ x.fractionField ≠ 0

def isInfinite (x : Binary64) : Bool := x.exponentField = 2047 ∧ x.fractionField = 0

-- The finite number is `significand * 2 ^ scale` units, up to its sign.
def significand (x : Binary64) : Nat :=
  if x.exponentField = 0 then x.fractionField else Nat.pow 2 52 + x.fractionField

def scale (x : Binary64) : Nat := x.exponentField - 1

def absUnits (x : Binary64) : Nat := x.significand * Nat.pow 2 x.scale

def units (x : Binary64) : Int := if x.negative then -(x.absUnits : Int) else x.absUnits

-- The number one has this many units.
def unitsOfOne : Nat := Nat.pow 2 1074

-- What is not a number has no magnitude and so equals nothing, itself included.
def magnitude? (x : Binary64) : Option Magnitude :=
  if x.isNaN then none
  else if x.isInfinite then some (.infinite x.negative)
  else some (.units x.units)

def isZero (x : Binary64) : Bool := x.magnitude? = some (.units 0)

-- The whole part of a finite number, without what stands behind the point.
def truncate (x : Binary64) : Int := x.units.tdiv unitsOfOne

-- The greatest whole number that is not above a finite number.
def floor (x : Binary64) : Int := x.units.fdiv unitsOfOne

-- The whole number that a finite number is, if it is one.
def whole? (x : Binary64) : Option Int :=
  if x.exponentField ≠ 2047 ∧ x.units % unitsOfOne = 0 then some x.truncate else none

end Binary64

namespace Magnitude

def ofInt (n : Int) : Magnitude := .units (n * Binary64.unitsOfOne)

end Magnitude

end RoleAccess
