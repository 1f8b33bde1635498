import RoleAccess.Log.Preview
import RoleAccess.Proofs.Text.OneLine

namespace RoleAccess

namespace Preview

theorem shorten_of_le {limit : Int} {cs : List Char} (h : (cs.length : Int) ≤ limit) :
    shorten limit cs = cs := by
  rw [shorten, if_neg (Int.not_lt.mpr h)]

-- From a limit of one on there is room for the ellipsis, and no cut counts from the end.
theorem shorten_of_lt {limit : Int} {cs : List Char} (hlimit : 1 ≤ limit)
    (h : limit < cs.length) : shorten limit cs = cs.take (limit - 1).toNat ++ [ellipsis] := by
  rw [shorten, if_pos h, cutAt, if_neg (by omega)]

-- There is no room for the ellipsis at a limit of zero. The cut counts from the end of the text
-- there, and the ellipsis takes the place of one character.
theorem shorten_zero {cs : List Char} (hne : cs ≠ []) :
    shorten 0 cs = cs.dropLast ++ [ellipsis] := by
  have hlength : (0 : Int) < cs.length := by
    have hpos := List.length_pos_of_ne_nil hne
    omega
  have hcut : cutAt cs.length (0 - 1) = cs.length - 1 := rfl
  rw [shorten, if_pos hlength, hcut, List.dropLast_eq_take]

theorem length_shorten_zero (cs : List Char) : (shorten 0 cs).length = cs.length := by
  cases cs with
  | nil => rfl
  | cons c cs =>
      rw [shorten_zero (List.cons_ne_nil c cs), List.length_append, List.length_dropLast]
      rfl

theorem length_shorten_le {limit : Int} (hlimit : 1 ≤ limit) (cs : List Char) :
    ((shorten limit cs).length : Int) ≤ limit := by
  rcases Int.lt_or_le limit cs.length with h | h
  · rw [shorten_of_lt hlimit h, List.length_append, List.length_take, List.length_singleton]
    omega
  · rwa [shorten_of_le h]

theorem oneLine_shorten {limit : Int} (hlimit : 1 ≤ limit) {cs : List Char}
    (h : Text.OneLine cs) : Text.OneLine (shorten limit cs) := by
  rcases Int.lt_or_le limit cs.length with hlt | hle
  · rw [shorten_of_lt hlimit hlt]
    exact h.take_concat _ (by decide)
  · rwa [shorten_of_le hle]

theorem toList_preview {limit : Int} (hlimit : 1 ≤ limit) (v : Value) :
    (preview v limit).toList = shorten limit (Text.squeeze (textOf v)).toList := by
  cases v with
  | none =>
      have hnil : (Text.squeeze (textOf .none)).toList = [] := by decide
      rw [hnil, shorten_of_le (by simp; omega)]
      rfl
  | _ => exact String.toList_ofList

theorem length_preview_le {limit : Int} (hlimit : 1 ≤ limit) (v : Value) :
    ((preview v limit).length : Int) ≤ limit := by
  rw [← String.length_toList, toList_preview hlimit]
  exact length_shorten_le hlimit _

theorem length_preview_zero (v : Value) :
    (preview v 0).length = (Text.squeeze (textOf v)).length := by
  cases v with
  | none => decide
  | _ => exact String.length_ofList.trans (length_shorten_zero _)

end Preview

-- A preview is one line. It is the text of the value on one line, as far as there is room for it,
-- and is not changed by being previewed again.
theorem preview_is_one_line (v : Value) (limit : Int) (hlimit : 1 ≤ limit) :
    Text.OneLine (preview v limit).toList ∧
    (∃ line : String,
      (∀ t : String, t = line ↔ Text.OneLine t.toList ∧
        Text.words t.toList = Text.words (Preview.textOf v).toList) ∧
      ((line.length : Int) ≤ limit → preview v limit = line) ∧
      (limit < line.length →
        preview v limit = String.ofList (line.toList.take (limit - 1).toNat) ++ "…")) ∧
    preview (.text (preview v limit)) limit = preview v limit := by
  have htext := Preview.toList_preview hlimit v
  have hline : Text.OneLine (preview v limit).toList := by
    rw [htext]
    exact Preview.oneLine_shorten hlimit (Text.oneLine_squeeze _)
  refine ⟨hline, ⟨Text.squeeze (Preview.textOf v), Text.eq_squeeze_iff _, fun hle => ?_,
    fun hlt => ?_⟩, ?_⟩
  · apply String.toList_injective
    rw [htext, Preview.shorten_of_le hle]
  · apply String.toList_injective
    rw [htext, Preview.shorten_of_lt hlimit hlt]
    simp [Preview.ellipsis]
  · have hsqueeze : Text.squeeze (Preview.textOf (.text (preview v limit))) = preview v limit :=
      Text.squeeze_of_oneLine hline
    have hlength : ((preview v limit).toList.length : Int) ≤ limit := by
      rw [htext]
      exact Preview.length_shorten_le hlimit _
    apply String.toList_injective
    rw [Preview.toList_preview hlimit, hsqueeze, Preview.shorten_of_le hlength]

def spaced : Value := .text " a\u2003\tb  c\n"

-- The cut falls right behind a space.
theorem preview_is_one_line_spaced :
    preview spaced 3 = "a …" ∧ Text.OneLine "a …".toList ∧ preview (.text "a …") 3 = "a …" ∧
    preview spaced 5 = "a b c" := by
  obtain ⟨hline, ⟨line, hunique, _, hcut⟩, hagain⟩ := preview_is_one_line spaced 3 (by decide)
  obtain ⟨_, ⟨whole, hsame, hwhole, _⟩, _⟩ := preview_is_one_line spaced 5 (by decide)
  have hspaced : Text.OneLine "a b c".toList ∧
      Text.words "a b c".toList = Text.words (Preview.textOf spaced).toList := by
    have hsqueeze : "a b c" = Text.squeeze (Preview.textOf spaced) := by decide
    exact (Text.eq_squeeze_iff _ _).mp hsqueeze
  obtain rfl := (hunique "a b c").mpr hspaced
  obtain rfl := (hsame "a b c").mpr hspaced
  have hpreview : preview spaced 3 = "a …" := by
    rw [hcut (by decide)]
    decide
  rw [hpreview] at hline hagain
  exact ⟨hpreview, hline, hagain, hwhole (by decide)⟩

-- A preview keeps to every limit that has room for the ellipsis. At a limit of zero it is as long
-- as its whole line, and so keeps to the limit only if there is nothing to show.
theorem preview_within_limit_iff (v : Value) (limit : Int) (hlimit : 0 ≤ limit) :
    ((preview v limit).length : Int) ≤ limit ↔
      1 ≤ limit ∨ ∀ c ∈ (Preview.textOf v).toList, Text.isBlank c = true := by
  rcases Int.lt_or_eq_of_le hlimit with hroom | rfl
  · have hbound := Preview.length_preview_le hroom v
    exact iff_of_true hbound (.inl hroom)
  · have hlength := Preview.length_preview_zero v
    rw [hlength, ← Text.squeeze_eq_empty_iff, ← String.length_eq_zero_iff]
    omega

theorem preview_within_limit_iff_spaced :
    ((preview spaced 1).length : Int) ≤ 1 ∧ ¬ ((preview spaced 0).length : Int) ≤ 0 ∧
      ((preview (.text "\t\u2003\n") 0).length : Int) ≤ 0 := by
  refine ⟨?_, fun hbound => ?_, ?_⟩
  · exact (preview_within_limit_iff spaced 1 (by decide)).mpr (.inl (by decide))
  · rcases (preview_within_limit_iff spaced 0 (by decide)).mp hbound with hroom | hblank
    · exact absurd hroom (by decide)
    · exact absurd (hblank 'a' (by decide)) (by decide)
  · have hblank : ∀ c ∈ "\t\u2003\n".toList, Text.isBlank c = true :=
      List.all_eq_true.mp (by decide)
    exact (preview_within_limit_iff _ 0 (by decide)).mpr (.inr hblank)

theorem preview_overruns_zero :
    preview (.text "read:own") 0 = "read:ow…" ∧
      ¬ ((preview (.text "read:own") 0).length : Int) ≤ 0 := by
  decide

end RoleAccess
