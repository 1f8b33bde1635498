import RoleAccess.Value.Datum
import RoleAccess.Value.Json

namespace RoleAccess

namespace Text

-- White space: the tabs and line breaks, the four separator controls, the next-line control
-- and the space separators.
def isBlank (c : Char) : Bool :=
  let n := c.toNat
  (9 ≤ n ∧ n ≤ 13) ∨ (28 ≤ n ∧ n ≤ 32) ∨ n = 0x85 ∨ n = 0xa0 ∨ n = 0x1680 ∨
    (0x2000 ≤ n ∧ n ≤ 0x200a) ∨ n = 0x2028 ∨ n = 0x2029 ∨ n = 0x202f ∨ n = 0x205f ∨ n = 0x3000

-- Cuts a text at every blank, into the part before the first one and the parts behind the
-- others.
def splitBlank : List Char → List Char × List (List Char)
  | [] => ([], [])
  | c :: cs =>
    let (head, tail) := splitBlank cs
    if isBlank c then ([], head :: tail) else (c :: head, tail)

-- The longest runs without a blank.
def words (cs : List Char) : List (List Char) :=
  let (head, tail) := splitBlank cs
  (head :: tail).filter (· ≠ [])

-- Puts one space for every run of blanks and none at the ends.
def squeeze (s : String) : String := String.ofList ([' '].intercalate (words s.toList))

end Text

namespace Preview

def jsonOrShown (v : Value) : String :=
  match v.json with
  | .ok s => s
  | .error _ => v.shown

-- The text of a value before it is shortened: a text itself, a collection as JSON where that
-- can be written, all else as it is shown. Nothing has no text.
def textOf : Value → String
  | .none => ""
  | .text s => s
  | .level l => l.name
  | .list items => jsonOrShown (.list items)
  | .tuple items => jsonOrShown (.tuple items)
  | .map entries => jsonOrShown (.map entries)
  | v => v.shown

-- Where a cut at `index` falls in `size` characters. An index below zero counts from the end.
def cutAt (size : Nat) (index : Int) : Nat := if index < 0 then size - index.natAbs else index.toNat

def ellipsis : Char := '…'

-- Cuts a text that is longer than the limit to make room for one ellipsis character.
def shorten (limit : Int) (cs : List Char) : List Char :=
  if limit < cs.length then cs.take (cutAt cs.length (limit - 1)) ++ [ellipsis] else cs

def defaultLimit : Int := 240

end Preview

-- One line that shows a value for a log: blanks are squeezed and the length is bounded. For
-- nothing the line is empty at any limit.
def preview (v : Value) (limit : Int) : String :=
  match v with
  | .none => ""
  | v => String.ofList (Preview.shorten limit (Text.squeeze (Preview.textOf v)).toList)

-- The same for what may turn out not to be shown.
def preview? (limits : Limits) (v : Value) (limit : Int) : Except ShowError String :=
  v.within limits (preview v limit)

-- A thing of the host's own brings the text of its preview along.
def Datum.preview? (limits : Limits) (limit : Int) : Datum → Except ShowError String
  | value v => RoleAccess.preview? limits v limit
  | object o => (o.previewed.mapError .host).map fun s => preview (.text s) limit

end RoleAccess
