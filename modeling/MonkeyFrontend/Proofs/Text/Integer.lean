import MonkeyFrontend.Proofs.Text.Portion

/-! # Integers in decimal digits

An integer is written with the digits of its magnitude, the first of which is zero only when it is
the only one, and with a minus in front when it is negative.  So it can be told where it ends, and
it is read back (`reads_integer`).
-/
namespace MonkeyFrontend.Text

/-- What an integer is written as. -/
theorem toList_toString (i : Int) : (toString i).toList =
    if 0 ≤ i then Nat.toDigits 10 i.toNat else '-' :: Nat.toDigits 10 (-i).toNat := by
  have hnat : ∀ n : Nat, n.repr.toList = Nat.toDigits 10 n := by
    intro n
    rw [Nat.repr_eq_ofList_toDigits, String.toList_ofList]
  have hwritten : toString i = if 0 ≤ i then i.toNat.repr else "-" ++ (-i).toNat.repr :=
    Int.repr_eq_if
  rw [hwritten]
  split_ifs
  · exact hnat _
  · rw [String.toList_append, hnat]
    rfl

/-- The digits of a number are digits. -/
theorem isDigit_of_mem_toDigits {n : Nat} {c : Char} (h : c ∈ Nat.toDigits 10 n) : c.isDigit :=
  Nat.isDigit_of_mem_toDigits (by decide) (by decide) h

/-- An integer is written with digits and a minus. -/
theorem mem_toString {i : Int} {c : Char} (h : c ∈ (toString i).toList) : c = '-' ∨ c.isDigit := by
  rw [toList_toString] at h
  split_ifs at h
  · exact Or.inr (isDigit_of_mem_toDigits h)
  · rcases List.mem_cons.mp h with rfl | h
    · exact Or.inl rfl
    · exact Or.inr (isDigit_of_mem_toDigits h)

/-- An integer is written with at least one character. -/
theorem toList_toString_ne_nil (i : Int) : (toString i).toList ≠ [] := by
  rw [toList_toString]
  split_ifs
  · exact Nat.toDigits_ne_nil
  · exact List.cons_ne_nil _ _

/-! ## Reading an integer -/

/-- The number at the head of a text: all digits up to the first other character, with no zero in
front of others. -/
def natural? (cs : List Char) : Option (Portion Nat cs) :=
  if h : cs.takeWhile Char.isDigit ≠ [] ∧
      ((cs.takeWhile Char.isDigit).head? = some '0' → cs.takeWhile Char.isDigit = ['0']) then
    some ⟨Nat.ofDigitChars 10 (cs.takeWhile Char.isDigit) 0, cs.dropWhile Char.isDigit, by
      have hsplit :=
        congrArg List.length (@List.takeWhile_append_dropWhile _ Char.isDigit cs)
      have hpos := List.length_pos_iff.mpr h.1
      rw [List.length_append] at hsplit
      omega⟩
  else none

/-- The integer at the head of a text: a number, or a minus and a number. -/
def integer? (cs : List Char) : Option (Portion Int cs) :=
  match cs with
  | [] => none
  | c :: rest =>
    if c = '-' then ((natural? rest).map (Portion.map fun n => -Int.ofNat n)).map Portion.behindChar
    else (natural? (c :: rest)).map (Portion.map Int.ofNat)

/-- Digits do not begin with zero, but for zero itself. -/
theorem head?_toDigits {n : Nat} (h : (Nat.toDigits 10 n).head? = some '0') :
    Nat.toDigits 10 n = ['0'] := by
  induction n using Nat.strongRecOn with
  | _ n ih =>
    by_cases hn : n < 10
    · rw [Nat.toDigits_of_lt_base hn] at h ⊢
      rw [Option.some.inj h]
    · have hle : 10 ≤ n := Nat.le_of_not_lt hn
      have hdigits := Nat.toDigits_of_base_le (by decide : 1 < 10) hle
      rw [hdigits, List.head?_append_of_ne_nil _ Nat.toDigits_ne_nil] at h
      have hzero := ih (n / 10) (Nat.div_lt_self (by omega) (by decide)) h
      have hvalue := congrArg (Nat.ofDigitChars 10 · 0) hzero
      rw [Nat.ofDigitChars_ten_toDigits] at hvalue
      have hlow : n / 10 = 0 := hvalue
      omega

/-- Digits are read up to the first other character. -/
theorem reads_natural (n : Nat) {more : List Char} (hmore : ∀ c ∈ more.head?, ¬ c.isDigit) :
    Reads (natural? (Nat.toDigits 10 n ++ more)) n more := by
  have hnot : more.takeWhile Char.isDigit = [] ∧ more.dropWhile Char.isDigit = more := by
    cases more with
    | nil => exact ⟨rfl, rfl⟩
    | cons c more =>
      have hc := hmore c rfl
      exact ⟨List.takeWhile_cons_of_neg hc, List.dropWhile_cons_of_neg hc⟩
  have htake : (Nat.toDigits 10 n ++ more).takeWhile Char.isDigit = Nat.toDigits 10 n := by
    rw [List.takeWhile_append_of_pos fun c => isDigit_of_mem_toDigits, hnot.1, List.append_nil]
  have hdrop : (Nat.toDigits 10 n ++ more).dropWhile Char.isDigit = more := by
    rw [List.dropWhile_append_of_pos fun c => isDigit_of_mem_toDigits, hnot.2]
  have hfits : Nat.toDigits 10 n ≠ [] ∧
      ((Nat.toDigits 10 n).head? = some '0' → Nat.toDigits 10 n = ['0']) :=
    ⟨Nat.toDigits_ne_nil, head?_toDigits⟩
  unfold natural?
  simp only [htake, hdrop, Nat.ofDigitChars_ten_toDigits]
  rw [dif_pos hfits]
  exact ⟨_, rfl⟩

/-- **An integer is read back**, up to the first character that is no digit. -/
theorem reads_integer (i : Int) {more : List Char} (hmore : ∀ c ∈ more.head?, ¬ c.isDigit) :
    Reads (integer? ((toString i).toList ++ more)) i more := by
  rw [toList_toString]
  by_cases hi : 0 ≤ i
  · have hvalue : Int.ofNat i.toNat = i := Int.toNat_of_nonneg hi
    obtain ⟨c, digits, hdigits⟩ := List.exists_cons_of_ne_nil (@Nat.toDigits_ne_nil i.toNat 10)
    have hdigit : c.isDigit := isDigit_of_mem_toDigits (hdigits ▸ List.mem_cons_self)
    have hc : c ≠ '-' := by
      rintro rfl
      exact absurd hdigit (by decide)
    have hread := (reads_natural i.toNat hmore).map Int.ofNat
    rw [hvalue, hdigits, List.cons_append] at hread
    rwa [if_pos hi, hdigits, List.cons_append, integer?, if_neg hc]
  · have hvalue : -Int.ofNat (-i).toNat = i := by
      rw [Int.ofNat_eq_natCast, Int.toNat_of_nonneg (by omega), Int.neg_neg]
    have hread := ((reads_natural (-i).toNat hmore).map fun n => -Int.ofNat n).behindChar (c := '-')
    rw [hvalue] at hread
    rwa [if_neg hi, List.cons_append, integer?, if_pos rfl]

end MonkeyFrontend.Text
