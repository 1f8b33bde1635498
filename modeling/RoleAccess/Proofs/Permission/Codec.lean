import RoleAccess.Permission.Check
import Mathlib.Data.Set.Function

namespace RoleAccess

namespace Text

-- Puts together what a cut takes apart.
def glue (sep : Char) : List Char × Option (List Char) → List Char
  | (head, none) => head
  | (head, some tail) => head ++ sep :: tail

theorem glue_cut (sep : Char) (cs : List Char) : glue sep (cut sep cs) = cs := by
  rcases cut_cases sep cs with ⟨_, hcut⟩ | ⟨head, tail, _, hcs, hcut⟩
  · rw [hcut]
    rfl
  · rw [hcut, hcs]
    rfl

theorem not_mem_cut (sep : Char) (cs : List Char) : sep ∉ (cut sep cs).1 := by
  rcases cut_cases sep cs with ⟨hcs, hcut⟩ | ⟨head, tail, hhead, _, hcut⟩
  · rw [hcut]
    exact hcs
  · rw [hcut]
    exact hhead

theorem isSome_cut (sep : Char) (cs : List Char) : (cut sep cs).2.isSome = true ↔ sep ∈ cs := by
  rcases cut_cases sep cs with ⟨hcs, hcut⟩ | ⟨head, tail, _, hcs, hcut⟩
  · simp [hcut, hcs]
  · rw [hcut, hcs]
    simp

theorem cut_glue {sep : Char} {parts : List Char × Option (List Char)} (h : sep ∉ parts.1) :
    cut sep (glue sep parts) = parts := by
  obtain ⟨head, tail⟩ := parts
  cases tail with
  | none => exact cut_of_not_mem h
  | some tail => exact cut_append h tail

theorem mem_glue {sep c : Char} (h : c ≠ sep) (parts : List Char × Option (List Char)) :
    c ∈ glue sep parts ↔ c ∈ parts.1 ∨ ∃ tail ∈ parts.2, c ∈ tail := by
  obtain ⟨head, tail⟩ := parts
  cases tail <;> simp [glue, h]

end Text

namespace Permission

-- A permission that its token can be read as. In a token the first separator counts, so a part
-- must not bring along a separator that ends it.
structure Legible (p : Permission) : Prop where
  action_qualifier : qualifierSeparator ∉ p.action.toList
  action_result : resultSeparator ∉ p.action.toList
  qualifier_result : ∀ q ∈ p.qualifier, resultSeparator ∉ q.toList

-- What stands in front of the result.
def body (p : Permission) : List Char :=
  Text.glue qualifierSeparator (p.action.toList, p.qualifier.map String.toList)

theorem toList_token (p : Permission) :
    p.token.toList = Text.glue resultSeparator (p.body, p.result.map String.toList) := by
  obtain ⟨action, qualifier, result⟩ := p
  cases qualifier <;> cases result <;> simp [token, body, Text.glue]

theorem legible_iff (p : Permission) :
    p.Legible ↔ qualifierSeparator ∉ p.action.toList ∧ resultSeparator ∉ p.body := by
  have hbody : resultSeparator ∈ p.body ↔
      resultSeparator ∈ p.action.toList ∨ ∃ q ∈ p.qualifier, resultSeparator ∈ q.toList := by
    rw [body, Text.mem_glue (by decide)]
    simp
  rw [hbody]
  constructor
  · intro h
    refine ⟨h.action_qualifier, ?_⟩
    rintro (haction | ⟨q, hq, hmem⟩)
    · exact h.action_result haction
    · exact h.qualifier_result q hq hmem
  · rintro ⟨haction, hrest⟩
    exact ⟨haction, fun hmem => hrest (.inl hmem), fun q hq hmem => hrest (.inr ⟨q, hq, hmem⟩)⟩

theorem body_parse (t : String) : (parse t).body = (Text.cut resultSeparator t.toList).1 := by
  simp [parse, body, Function.comp_def, Text.glue_cut]

theorem token_parse (t : String) : (parse t).token = t := by
  apply String.toList_injective
  rw [toList_token, body_parse]
  simp [parse, Function.comp_def, Text.glue_cut]

-- Whatever the token, the part in front of a separator is free of it.
theorem legible_parse (t : String) : (parse t).Legible := by
  rw [legible_iff, body_parse]
  refine ⟨?_, Text.not_mem_cut _ _⟩
  simp [parse, Text.not_mem_cut]

theorem Legible.parse_token {p : Permission} (h : p.Legible) : parse p.token = p := by
  obtain ⟨haction, hbody⟩ := (legible_iff p).mp h
  have hresult : Text.cut resultSeparator p.token.toList =
      (p.body, p.result.map String.toList) := by
    rw [toList_token]
    exact Text.cut_glue hbody
  have hqualifier : Text.cut qualifierSeparator p.body =
      (p.action.toList, p.qualifier.map String.toList) :=
    Text.cut_glue haction
  simp [parse, hresult, hqualifier, Function.comp_def]

theorem parse_token_iff (p : Permission) : parse p.token = p ↔ p.Legible := by
  constructor
  · intro h
    exact h ▸ legible_parse p.token
  · exact Legible.parse_token

theorem ofParts_text (action : String) (qualifier result : Option String) :
    ofParts action qualifier (.ofOption .text result) = ⟨action, qualifier, result⟩ := by
  cases result <;> rfl

-- Tokens and legible permissions stand for each other, one by one.
theorem parse_bijOn :
    (∀ t, (parse t).token = t) ∧
    (∀ action qualifier result,
      parse (ofParts action qualifier (.ofOption .text result)).token =
          ⟨action, qualifier, result⟩ ↔
        qualifierSeparator ∉ action.toList ∧ resultSeparator ∉ action.toList ∧
          ∀ q ∈ qualifier, resultSeparator ∉ q.toList) ∧
    Set.BijOn parse Set.univ {p | p.Legible} := by
  refine ⟨token_parse, ?_, ?_, ?_, ?_⟩
  · intro action qualifier result
    rw [ofParts_text, parse_token_iff]
    exact ⟨fun h => ⟨h.1, h.2, h.3⟩, fun ⟨hq, hr, hrest⟩ => ⟨hq, hr, hrest⟩⟩
  · exact fun t _ => legible_parse t
  · exact (Function.LeftInverse.injective token_parse).injOn
  · exact fun p hp => ⟨p.token, Set.mem_univ _, hp.parse_token⟩

-- A colon in the result stays there, and one in the action starts the qualifier.
example : parse "update|a:b" = ⟨"update", none, some "a:b"⟩ := by decide +kernel

example : parse (token ⟨"up:date", some "own", none⟩) = ⟨"up", some "date:own", none⟩ := by
  decide +kernel

end Permission

end RoleAccess
