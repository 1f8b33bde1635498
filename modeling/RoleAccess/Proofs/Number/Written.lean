import RoleAccess.Number.Written

namespace RoleAccess.Binary64

-- The characters that numbers are written with.
def Numeric (c : Char) : Prop := c.isDigit = true ∨ c ∈ ['.', 'e', '+', '-']

instance (c : Char) : Decidable (Numeric c) :=
  inferInstanceAs (Decidable (c.isDigit = true ∨ c ∈ ['.', 'e', '+', '-']))

-- A text in which nothing else stands.
def AllNumeric (s : String) : Prop := ∀ c ∈ s.toList, Numeric c

instance (s : String) : Decidable (AllNumeric s) :=
  List.decidableBAll Numeric s.toList

theorem AllNumeric.append {s t : String} (hs : AllNumeric s) (ht : AllNumeric t) :
    AllNumeric (s ++ t) := by
  intro c hc
  rw [String.toList_append] at hc
  rcases List.mem_append.mp hc with h | h
  · exact hs c h
  · exact ht c h

theorem allNumeric_ofList {cs : List Char} (h : ∀ c ∈ cs, c.isDigit = true) :
    AllNumeric (String.ofList cs) := by
  intro c hc
  rw [String.toList_ofList] at hc
  exact .inl (h c hc)

theorem isDigit_toDigits (n : Nat) : ∀ c ∈ Nat.toDigits 10 n, c.isDigit = true :=
  fun _ => Nat.isDigit_of_mem_toDigits (by decide) (by decide)

theorem allNumeric_nat (n : Nat) : AllNumeric (toString n) := by
  rw [Nat.toString_eq_ofList_toDigits]
  exact allNumeric_ofList (isDigit_toDigits n)

theorem allNumeric_int (n : Int) : AllNumeric (toString n) := by
  cases n with
  | ofNat n => exact allNumeric_nat n
  | negSucc n => exact AllNumeric.append (s := "-") (by decide) (allNumeric_nat (n + 1))

theorem allNumeric_ite {p : Prop} [Decidable p] {s t : String} (hs : AllNumeric s)
    (ht : AllNumeric t) : AllNumeric (if p then s else t) := by
  split
  · exact hs
  · exact ht

theorem allNumeric_twoDigits (n : Nat) : AllNumeric (twoDigits n) :=
  allNumeric_ite (.append (by decide) (allNumeric_nat n)) (allNumeric_nat n)

theorem allNumeric_withExponent {digits : List Char} (h : ∀ c ∈ digits, c.isDigit = true)
    (power : Int) : AllNumeric (withExponent digits power) := by
  have hhead : AllNumeric (String.ofList (digits.take 1)) :=
    allNumeric_ofList fun c hc => h c (List.mem_of_mem_take hc)
  have htail : AllNumeric (String.ofList (digits.drop 1)) :=
    allNumeric_ofList fun c hc => h c (List.mem_of_mem_drop hc)
  have hpoint : AllNumeric (if String.ofList (digits.drop 1) = "" then "" else ".") :=
    allNumeric_ite (by decide) (by decide)
  have hsign : AllNumeric (if power < 0 then "-" else "+") :=
    allNumeric_ite (by decide) (by decide)
  have hmark : AllNumeric "e" := by decide
  have hmantissa := (hhead.append hpoint).append htail
  exact ((hmantissa.append hmark).append hsign).append (allNumeric_twoDigits power.natAbs)

theorem allNumeric_positional {digits : List Char} (h : ∀ c ∈ digits, c.isDigit = true)
    (before : Int) : AllNumeric (positional digits before) := by
  have hzeros (count : Nat) : ∀ c ∈ List.replicate count '0', c.isDigit = true := by
    intro c hc
    rw [List.eq_of_mem_replicate hc]
    decide
  have hpoint : AllNumeric "." := by decide
  unfold positional
  split
  · have hzero : AllNumeric "0." := by decide
    refine hzero.append (allNumeric_ofList fun c hc => ?_)
    exact (List.mem_append.mp hc).elim (hzeros _ c) (h c)
  · refine (AllNumeric.append (allNumeric_ofList fun c hc => ?_) hpoint).append
      (allNumeric_ofList fun c hc => ?_)
    · exact (List.mem_append.mp hc).elim (fun hc => h c (List.mem_of_mem_take hc)) (hzeros _ c)
    · split at hc
      · rw [List.mem_singleton.mp hc]
        decide
      · exact h c (List.mem_of_mem_drop hc)

theorem allNumeric_absText (x : Binary64) : AllNumeric x.absText :=
  have hdigits := isDigit_toDigits x.shortest.digits
  allNumeric_ite (allNumeric_positional hdigits _) (allNumeric_withExponent hdigits _)

end RoleAccess.Binary64
