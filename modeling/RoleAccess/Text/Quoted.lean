import RoleAccess.Text.Printable

namespace RoleAccess.Text

-- The last `width` hexadecimal digits of a number.
def hex : Nat → Nat → List Char
  | 0, _ => []
  | width + 1, n => hex width (n / 16) ++ [Nat.digitChar (n % 16)]

-- Single quotes stand around a literal, unless it has some inside and no double ones.
def quoteFor (cs : List Char) : Char := if '\x27' ∈ cs ∧ '"' ∉ cs then '"' else '\x27'

-- The escapes that texts and bytes have in common.
def escapeCommon? (quote c : Char) : Option (List Char) :=
  if c = '\\' ∨ c = quote then some ['\\', c]
  else if c = '\t' then some ['\\', 't']
  else if c = '\n' then some ['\\', 'n']
  else if c = '\r' then some ['\\', 'r']
  else none

-- A character that cannot be shown is written as its code point in the narrowest form.
def escapeHidden (c : Char) : List Char :=
  let n := c.toNat
  if n < 0x100 then '\\' :: 'x' :: hex 2 n
  else if n < 0x10000 then '\\' :: 'u' :: hex 4 n
  else '\\' :: 'U' :: hex 8 n

def escapeChar (quote c : Char) : List Char :=
  (escapeCommon? quote c).getD (if isPrintable c then [c] else escapeHidden c)

-- All that is not ASCII is written as its code point.
def escaped (s : String) : String :=
  String.ofList (s.toList.flatMap fun c => if c.toNat < 128 then [c] else escapeHidden c)

-- A text as a literal.
def quoted (s : String) : String :=
  let cs := s.toList
  let quote := quoteFor cs
  String.ofList (quote :: cs.flatMap (escapeChar quote) ++ [quote])

def escapeByte (quote : Char) (b : UInt8) : List Char :=
  let c := Char.ofNat b.toNat
  (escapeCommon? quote c).getD
    (if 32 ≤ b.toNat ∧ b.toNat < 127 then [c] else '\\' :: 'x' :: hex 2 b.toNat)

-- A sequence of bytes as a literal, those in the range of letters shown as such.
def quotedBytes (bs : List UInt8) : String :=
  let quote := quoteFor (bs.map fun b => Char.ofNat b.toNat)
  String.ofList ('b' :: quote :: bs.flatMap (escapeByte quote) ++ [quote])

-- A text in double quotes, with escapes for quotes, backslashes and the controls below the
-- space only.
def escapeJson (c : Char) : List Char :=
  if c = '"' ∨ c = '\\' then ['\\', c]
  else if c = '\n' then ['\\', 'n']
  else if c = '\r' then ['\\', 'r']
  else if c = '\t' then ['\\', 't']
  else if c = '\x08' then ['\\', 'b']
  else if c = '\x0c' then ['\\', 'f']
  else if c.toNat < 32 then '\\' :: 'u' :: hex 4 c.toNat
  else [c]

def quotedJson (s : String) : String :=
  String.ofList ('"' :: s.toList.flatMap escapeJson ++ ['"'])

end RoleAccess.Text
