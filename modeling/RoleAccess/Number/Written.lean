import RoleAccess.Number.Shortest

namespace RoleAccess.Binary64

-- From this power of ten on a number is written with an exponent.
def exponentFrom : Int := 16

-- Below this power of ten a number is written with an exponent.
def exponentBelow : Int := -4

-- At least two digits.
def twoDigits (n : Nat) : String := if n < 10 then "0" ++ toString n else toString n

-- Writes the digits with a point behind the first one and the power of ten at the end.
def withExponent (digits : List Char) (power : Int) : String :=
  let head := String.ofList (digits.take 1)
  let tail := String.ofList (digits.drop 1)
  let point := if tail = "" then "" else "."
  let sign := if power < 0 then "-" else "+"
  head ++ point ++ tail ++ "e" ++ sign ++ twoDigits power.natAbs

-- Writes the digits with the point behind the first `before` of them, and always with a digit
-- on both sides of it.
def positional (digits : List Char) (before : Int) : String :=
  if before ≤ 0 then
    "0." ++ String.ofList (List.replicate before.natAbs '0' ++ digits)
  else
    let width := before.toNat
    let whole := digits.take width ++ List.replicate (width - digits.length) '0'
    let rest := if digits.length ≤ width then ['0'] else digits.drop width
    String.ofList whole ++ "." ++ String.ofList rest

-- The text of a finite number without its sign.
def absText (x : Binary64) : String :=
  let d := x.shortest
  let digits := Nat.toDigits 10 d.digits
  let before := (digits.length : Int) + d.exponent
  if exponentBelow ≤ before - 1 ∧ before - 1 < exponentFrom then positional digits before
  else withExponent digits (before - 1)

-- The shortest text that reads back. `nan` and `infinity` are what to write for those.
def text (nan infinity : String) (x : Binary64) : String :=
  if x.isNaN then nan
  else
    let sign := if x.negative then "-" else ""
    sign ++ if x.isInfinite then infinity else x.absText

end RoleAccess.Binary64
