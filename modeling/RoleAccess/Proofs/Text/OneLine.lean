import RoleAccess.Log.Preview
import Mathlib.Data.List.Chain

namespace RoleAccess.Text

-- The only blanks are spaces, and each of them has something else in front of it and behind it.
structure OneLine (cs : List Char) : Prop where
  blank : ∀ c ∈ cs, isBlank c = true → c = ' '
  single : cs.IsChain fun a b => a = ' ' → b ≠ ' '
  head : cs.head? ≠ some ' '
  last : cs.getLast? ≠ some ' '

-- A word is not empty, and there is no blank in it.
def IsWord (w : List Char) : Prop := w ≠ [] ∧ ∀ c ∈ w, isBlank c = false

theorem splitBlank_append_cons {b : Char} (hb : isBlank b = true) (front back : List Char) :
    splitBlank (front ++ b :: back) =
      ((splitBlank front).1, (splitBlank front).2 ++ (splitBlank back).1 :: (splitBlank back).2) := by
  induction front with
  | nil => simp [splitBlank, hb]
  | cons c front ih =>
      rw [List.cons_append, splitBlank, ih, splitBlank]
      cases isBlank c <;> rfl

theorem splitBlank_of_no_blank {cs : List Char} (h : ∀ c ∈ cs, isBlank c = false) :
    splitBlank cs = (cs, []) := by
  induction cs with
  | nil => rfl
  | cons c cs ih =>
      obtain ⟨hc, hcs⟩ := List.forall_mem_cons.mp h
      rw [splitBlank, ih hcs]
      simp [hc]

theorem isBlank_of_mem_splitBlank {cs : List Char} :
    ∀ run ∈ (splitBlank cs).1 :: (splitBlank cs).2, ∀ c ∈ run, isBlank c = false := by
  induction cs with
  | nil => simp [splitBlank]
  | cons d cs ih =>
      rw [splitBlank]
      cases hd : isBlank d with
      | true => simpa using ih
      | false =>
          obtain ⟨hhead, htail⟩ := List.forall_mem_cons.mp ih
          exact List.forall_mem_cons.mpr ⟨List.forall_mem_cons.mpr ⟨hd, hhead⟩, htail⟩

theorem words_eq (cs : List Char) :
    words cs = ((splitBlank cs).1 :: (splitBlank cs).2).filter (· ≠ []) := rfl

-- Words end at a blank.
theorem words_append_cons {b : Char} (hb : isBlank b = true) (front back : List Char) :
    words (front ++ b :: back) = words front ++ words back := by
  rw [words_eq, splitBlank_append_cons hb, words_eq, words_eq, ← List.filter_append,
    List.cons_append]

theorem words_of_isWord {w : List Char} (h : IsWord w) : words w = [w] := by
  rw [words_eq, splitBlank_of_no_blank h.2]
  simp [h.1]

theorem isWord_of_mem_words {cs w : List Char} (h : w ∈ words cs) : IsWord w := by
  obtain ⟨hmem, hne⟩ := List.mem_filter.mp h
  exact ⟨of_decide_eq_true hne, isBlank_of_mem_splitBlank w hmem⟩

theorem words_eq_nil_iff (cs : List Char) : words cs = [] ↔ ∀ c ∈ cs, isBlank c = true := by
  induction cs with
  | nil => exact iff_of_true rfl (by simp)
  | cons c cs ih =>
      rw [List.forall_mem_cons, ← ih]
      cases hc : isBlank c with
      | true =>
          have hwords : words (c :: cs) = words cs := words_append_cons hc [] cs
          rw [hwords]
          exact (and_iff_right rfl).symm
      | false =>
          have hword : c :: (splitBlank cs).1 ∈ words (c :: cs) := by
            rw [words_eq, splitBlank]
            simp [hc]
          exact iff_of_false (List.ne_nil_of_mem hword) (by simp)

theorem isBlank_space : isBlank ' ' = true := by decide

-- Words that are written with a space between them are read back.
theorem words_intercalate {ws : List (List Char)} (h : ∀ w ∈ ws, IsWord w) :
    words ([' '].intercalate ws) = ws := by
  induction ws with
  | nil => rfl
  | cons w ws ih =>
      obtain ⟨hw, hws⟩ := List.forall_mem_cons.mp h
      cases ws with
      | nil => rw [List.intercalate_singleton, words_of_isWord hw]
      | cons v ws =>
          rw [List.intercalate_cons_cons, List.append_assoc, List.singleton_append,
            words_append_cons isBlank_space, words_of_isWord hw, ih hws, List.singleton_append]

theorem IsWord.ne_space {w : List Char} (h : IsWord w) {c : Char} (hc : c ∈ w) : c ≠ ' ' := by
  rintro rfl
  have hblank := h.2 ' ' hc
  rw [isBlank_space] at hblank
  cases hblank

theorem IsWord.oneLine {w : List Char} (h : IsWord w) : OneLine w where
  blank c hc hblank := by
    rw [h.2 c hc] at hblank
    cases hblank
  single := by
    apply List.Pairwise.isChain
    exact List.pairwise_of_forall_mem_list fun a ha b _ hspace => absurd hspace (h.ne_space ha)
  head hspace := h.ne_space (List.mem_of_head? hspace) rfl
  last hspace := h.ne_space (List.mem_of_getLast? hspace) rfl

theorem OneLine.word_append {w cs : List Char} (hw : IsWord w) (h : OneLine cs) (hne : cs ≠ []) :
    OneLine (w ++ ' ' :: cs) where
  blank c hc hblank := by
    rcases List.mem_append.mp hc with hmem | hmem
    · exact hw.oneLine.blank c hmem hblank
    · rcases List.mem_cons.mp hmem with hspace | hmem
      · exact hspace
      · exact h.blank c hmem hblank
  single := by
    have hcs : (' ' :: cs).IsChain fun a b => a = ' ' → b ≠ ' ' :=
      List.isChain_cons.mpr ⟨fun b hb _ hspace => h.head (hspace ▸ hb), h.single⟩
    refine List.isChain_append.mpr ⟨hw.oneLine.single, hcs, fun a ha b _ hspace => ?_⟩
    exact absurd hspace (hw.ne_space (List.mem_of_getLast? ha))
  head := by
    rw [List.head?_append_of_ne_nil _ hw.1]
    exact hw.oneLine.head
  last := by
    rw [List.getLast?_append_of_ne_nil _ (List.cons_ne_nil _ _), List.getLast?_cons_of_ne_nil hne]
    exact h.last

theorem OneLine.of_append {front back : List Char} (h : OneLine (front ++ ' ' :: back)) :
    OneLine back ∧ back ≠ [] := by
  have hne : back ≠ [] := by
    rintro rfl
    exact h.last (List.getLast?_concat ..)
  obtain ⟨hhead, hsingle⟩ := List.isChain_cons.mp h.single.right_of_append
  refine ⟨⟨fun c hc => h.blank c ?_, hsingle, fun hspace => ?_, fun hspace => ?_⟩, hne⟩
  · exact List.mem_append_right _ (List.mem_cons_of_mem _ hc)
  · exact hhead ' ' hspace rfl rfl
  · apply h.last
    rwa [List.getLast?_append_of_ne_nil _ (List.cons_ne_nil _ _), List.getLast?_cons_of_ne_nil hne]

theorem oneLine_intercalate {ws : List (List Char)} (h : ∀ w ∈ ws, IsWord w) :
    OneLine ([' '].intercalate ws) := by
  induction ws with
  | nil => exact ⟨by simp, .nil, by simp, by simp⟩
  | cons w ws ih =>
      obtain ⟨hw, hws⟩ := List.forall_mem_cons.mp h
      cases ws with
      | nil =>
          rw [List.intercalate_singleton]
          exact hw.oneLine
      | cons v ws =>
          have hne : [' '].intercalate (v :: ws) ≠ [] := by
            intro hnil
            have hwords := words_intercalate hws
            rw [hnil] at hwords
            cases hwords
          rw [List.intercalate_cons_cons, List.append_assoc, List.singleton_append]
          exact .word_append hw (ih hws) hne

-- A text has no blank, or a first one.
theorem blank_cases (cs : List Char) :
    (∀ c ∈ cs, isBlank c = false) ∨
      ∃ front b back, cs = front ++ b :: back ∧ isBlank b = true ∧
        ∀ c ∈ front, isBlank c = false := by
  induction cs with
  | nil => exact .inl (by simp)
  | cons c cs ih =>
      cases hc : isBlank c with
      | true => exact .inr ⟨[], c, cs, rfl, hc, by simp⟩
      | false =>
          rcases ih with hnone | ⟨front, b, back, rfl, hb, hfront⟩
          · exact .inl (List.forall_mem_cons.mpr ⟨hc, hnone⟩)
          · exact .inr ⟨c :: front, b, back, rfl, hb, List.forall_mem_cons.mpr ⟨hc, hfront⟩⟩

-- By induction on the length, as what is behind the first space is one line again.
theorem OneLine.exists_words {cs : List Char} (h : OneLine cs) :
    ∃ ws, (∀ w ∈ ws, IsWord w) ∧ cs = [' '].intercalate ws := by
  induction hlength : cs.length using Nat.strongRecOn generalizing cs with
  | ind n ih =>
      rcases blank_cases cs with hnone | ⟨front, b, back, rfl, hb, hfront⟩
      · by_cases hnil : cs = []
        · exact ⟨[], by simp, hnil⟩
        · exact ⟨[cs], by simpa using ⟨hnil, hnone⟩, (List.intercalate_singleton ..).symm⟩
      · obtain rfl : b = ' ' := h.blank b (by simp) hb
        have hword : IsWord front := by
          refine ⟨?_, hfront⟩
          rintro rfl
          exact h.head rfl
        obtain ⟨hback, hne⟩ := h.of_append
        have hlt : back.length < n := by
          simp only [List.length_append, List.length_cons] at hlength
          omega
        obtain ⟨ws, hws, rfl⟩ := ih _ hlt hback rfl
        refine ⟨front :: ws, List.forall_mem_cons.mpr ⟨hword, hws⟩, ?_⟩
        cases ws with
        | nil => exact absurd rfl hne
        | cons v ws =>
            rw [List.intercalate_cons_cons, List.append_assoc, List.singleton_append]

theorem toList_squeeze (s : String) : (squeeze s).toList = [' '].intercalate (words s.toList) := by
  rw [squeeze, String.toList_ofList]

theorem oneLine_squeeze (s : String) : OneLine (squeeze s).toList := by
  rw [toList_squeeze]
  exact oneLine_intercalate fun _ => isWord_of_mem_words

theorem words_squeeze (s : String) : words (squeeze s).toList = words s.toList := by
  rw [toList_squeeze, words_intercalate fun _ => isWord_of_mem_words]

-- One line is all that its words tell.
theorem OneLine.intercalate_words {cs : List Char} (h : OneLine cs) :
    [' '].intercalate (words cs) = cs := by
  obtain ⟨ws, hws, rfl⟩ := h.exists_words
  rw [words_intercalate hws]

theorem squeeze_eq_empty_iff (s : String) : squeeze s = "" ↔ ∀ c ∈ s.toList, isBlank c = true := by
  rw [← words_eq_nil_iff, ← words_squeeze]
  constructor
  · intro hempty
    rw [hempty]
    rfl
  · intro hwords
    apply String.toList_injective
    rw [← (oneLine_squeeze s).intercalate_words, hwords]
    rfl

theorem eq_squeeze_iff (s t : String) :
    t = squeeze s ↔ OneLine t.toList ∧ words t.toList = words s.toList := by
  constructor
  · rintro rfl
    exact ⟨oneLine_squeeze s, words_squeeze s⟩
  · rintro ⟨hline, hwords⟩
    apply String.toList_injective
    rw [toList_squeeze, ← hwords, hline.intercalate_words]

theorem squeeze_of_oneLine {s : String} (h : OneLine s.toList) : squeeze s = s :=
  ((eq_squeeze_iff s s).mpr ⟨h, rfl⟩).symm

-- A line may be cut off anywhere, also behind a space, if something else is put there.
theorem OneLine.take_concat {cs : List Char} (h : OneLine cs) (n : Nat) {c : Char}
    (hc : isBlank c = false) : OneLine (cs.take n ++ [c]) := by
  have hne : c ≠ ' ' := by
    rintro rfl
    rw [isBlank_space] at hc
    cases hc
  refine ⟨fun d hd hblank => ?_, ?_, fun hspace => ?_, fun hspace => ?_⟩
  · rcases List.mem_append.mp hd with hmem | hmem
    · exact h.blank d (List.mem_of_mem_take hmem) hblank
    · rw [List.mem_singleton.mp hmem, hc] at hblank
      cases hblank
  · refine List.isChain_append.mpr ⟨h.single.take n, .singleton c, fun a _ b hb _ => ?_⟩
    rwa [← Option.some_inj.mp hb]
  · cases n with
    | zero => exact hne (Option.some_inj.mp hspace)
    | succ n =>
        cases cs with
        | nil => exact hne (Option.some_inj.mp hspace)
        | cons d ds => exact h.head hspace
  · rw [List.getLast?_concat, Option.some_inj] at hspace
    exact hne hspace

end RoleAccess.Text
