namespace RoleAccess

namespace Text

-- Splits at the first `sep`; the second part is missing when there is none.
def cut (sep : Char) : List Char → List Char × Option (List Char)
  | [] => ([], none)
  | c :: cs =>
    if c = sep then ([], some cs)
    else
      let (head, tail) := cut sep cs
      (c :: head, tail)

theorem cut_of_not_mem {sep : Char} {cs : List Char} (h : sep ∉ cs) :
    cut sep cs = (cs, none) := by
  induction cs with
  | nil => rfl
  | cons c cs ih =>
    simp only [List.mem_cons, not_or] at h
    have hc : c ≠ sep := fun hc => h.1 hc.symm
    simp [cut, hc, ih h.2]

theorem cut_append {sep : Char} {head : List Char} (h : sep ∉ head) (tail : List Char) :
    cut sep (head ++ sep :: tail) = (head, some tail) := by
  induction head with
  | nil => simp [cut]
  | cons c cs ih =>
    simp only [List.mem_cons, not_or] at h
    have hc : c ≠ sep := fun hc => h.1 hc.symm
    simp [cut, hc, ih h.2]

-- A text either has no separator or falls into what is in front of the first one and what is
-- behind it.
theorem cut_cases (sep : Char) (cs : List Char) :
    (sep ∉ cs ∧ cut sep cs = (cs, none)) ∨
      ∃ head tail, sep ∉ head ∧ cs = head ++ sep :: tail ∧ cut sep cs = (head, some tail) := by
  induction cs with
  | nil => simp [cut]
  | cons c cs ih =>
    by_cases hc : c = sep
    · right
      exact ⟨[], cs, by simp, by simp [hc], by simp [cut, hc]⟩
    · have hc' : sep ≠ c := fun h => hc h.symm
      cases ih with
      | inl h => left; exact ⟨by simp [hc', h.1], by simp [cut, hc, h.2]⟩
      | inr h =>
        obtain ⟨head, tail, hhead, hcs, hcut⟩ := h
        right
        exact ⟨c :: head, tail, by simp [hc', hhead], by simp [hcs], by simp [cut, hc, hcut]⟩

end Text

-- A permission token in its parts. The written form is `action[:qualifier][|result]`; a part
-- that is written but empty is there all the same.
structure Permission where
  action : String
  qualifier : Option String
  result : Option String
  deriving DecidableEq, Repr

namespace Permission

-- The token that stands for every action on a resource.
def wildcard : String := "*"

def qualifierSeparator : Char := ':'

def resultSeparator : Char := '|'

-- How the outcome of a check is written.
def outcome (passed : Bool) : String := if passed then "true" else "false"

-- Reading never fails: the first `|` starts the result, and the first `:` before it starts
-- the qualifier.
def parse (token : String) : Permission :=
  let (body, result) := Text.cut resultSeparator token.toList
  let (action, qualifier) := Text.cut qualifierSeparator body
  ⟨String.ofList action, qualifier.map String.ofList, result.map String.ofList⟩

def token (p : Permission) : String :=
  let qualified := match p.qualifier with
    | none => p.action
    | some q => p.action ++ qualifierSeparator.toString ++ q
  match p.result with
  | none => qualified
  | some r => qualified ++ resultSeparator.toString ++ r

def isQualified (p : Permission) : Bool := p.qualifier.isSome

def hasResult (p : Permission) : Bool := p.result.isSome

def resultPassed (p : Permission) : Bool := p.result = some (outcome true)

-- The grant a request asks for, with the outcome of its check left out.
def withoutResult (p : Permission) : Permission := { p with result := none }

end Permission

end RoleAccess
