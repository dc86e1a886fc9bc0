import Mathlib.Data.Nat.Digits.Defs
import MonkeyFrontend.Proofs.Source.Spelling
import MonkeyFrontend.Text.Decimal

/-! # The value of a run of digits

A nonempty run of the digits of the basic Latin alphabet always denotes a number, and it is
the one that the digits have in base ten (`decimal?_of_digits`).  Two runs denote the same number
exactly when they are equal but for leading zeros (`unpadded_eq_iff`), and a number is denoted by its
decimal digits behind any zeros (`decimalValue_padded`).
-/
namespace MonkeyFrontend

/-- The number that digits denote behind digits of value `n`. -/
def digitsValue (n : Nat) (cs : List Char) : Nat :=
  cs.foldl (fun n c => 10 * n + (c.toNat - '0'.toNat)) n

/-- The number that a run of decimal digits denotes. -/
def decimalValue (w : String) : Nat := digitsValue 0 w.toList

theorem toNat_of_isDigit {c : Char} (h : isDigit c) : 48 ≤ c.toNat ∧ c.toNat < 58 := by
  simp only [isDigit, Bool.and_eq_true, decide_eq_true_eq, Char.le_def,
    UInt32.le_iff_toNat_le] at h
  have hlow : 48 ≤ c.val.toNat := h.1
  have hhigh : c.val.toNat ≤ 57 := h.2
  exact ⟨hlow, Nat.lt_succ_of_le hhigh⟩

theorem digitValue?_of_isDigit {c : Char} (h : isDigit c) :
    Text.digitValue? c = some (c.toNat - '0'.toNat) := by
  obtain ⟨hlow, hhigh⟩ := toNat_of_isDigit h
  have hzero : Text.zeros.find? (fun z => decide (z ≤ c.toNat) && decide (c.toNat < z + 10)) =
      some 48 := by
    rw [Text.zeros, List.find?_cons_of_pos]
    simp [hlow, hhigh]
  rw [Text.digitValue?, hzero]
  rfl

theorem digitsValue?_of_digits {cs : List Char} (h : ∀ c ∈ cs, isDigit c) (n : Nat) :
    Text.digitsValue? n cs = some (digitsValue n cs) := by
  induction cs generalizing n with
  | nil => rfl
  | cons c cs ih =>
    obtain ⟨hc, hcs⟩ := List.forall_mem_cons.mp h
    rw [Text.digitsValue?, digitValue?_of_isDigit hc]
    exact ih hcs _

/-- **A run of digits denotes its value in base ten.** -/
theorem decimal?_of_digits {w : String} (hne : w ≠ "") (h : ∀ c ∈ w.toList, isDigit c) :
    Text.decimal? w.toList = some (decimalValue w) := by
  rw [decimalValue, ← digitsValue?_of_digits h]
  cases hw : w.toList with
  | nil => exact absurd (by simpa using hw) hne
  | cons c cs => rfl

/-- What spells a number is a run of digits. -/
theorem Spells.digits {w : String} (h : Spells .int w) : w ≠ "" ∧ ∀ c ∈ w.toList, isDigit c := by
  have hkeywords : ∀ p ∈ Kind.keywords, p.2 ≠ .int := by decide
  have hsymbols : ∀ p ∈ Kind.symbols, p.2 ≠ .int := by decide
  cases h with
  | keyword hk => exact absurd rfl (hkeywords _ hk)
  | symbol hk => exact absurd rfl (hsymbols _ hk)
  | number hne hw => exact ⟨hne, hw⟩

/-! ## Leading zeros -/

/-- A run of digits without its leading zeros. -/
def unpadded (w : String) : String := String.ofList (w.toList.dropWhile (· == '0'))

theorem digitsValue_dropWhile (cs : List Char) :
    digitsValue 0 (cs.dropWhile (· == '0')) = digitsValue 0 cs := by
  induction cs with
  | nil => rfl
  | cons c cs ih =>
    by_cases hc : c = '0'
    · subst hc
      exact ih
    · rw [List.dropWhile_cons_of_neg (by simpa using hc)]

/-- Leading zeros do not count. -/
theorem decimalValue_unpadded (w : String) : decimalValue (unpadded w) = decimalValue w := by
  rw [decimalValue, unpadded, String.toList_ofList]
  exact digitsValue_dropWhile w.toList

/-- The value of digits behind others is theirs beside the others', moved on by their number. -/
theorem digitsValue_eq_ofDigits (n : Nat) (cs : List Char) : digitsValue n cs =
    Nat.ofDigits 10 (cs.map (·.toNat - '0'.toNat)).reverse + 10 ^ cs.length * n := by
  induction cs generalizing n with
  | nil => simp [digitsValue]
  | cons c cs ih =>
    have hstep : digitsValue n (c :: cs) = digitsValue (10 * n + (c.toNat - '0'.toNat)) cs := rfl
    rw [hstep, ih, List.map_cons, Nat.ofDigits_reverse_cons, List.length_map, List.length_cons,
      Nat.pow_succ]
    ring

/-- The value of a digit is below ten. -/
theorem digit_lt_ten {cs : List Char} (h : ∀ c ∈ cs, isDigit c) :
    ∀ d ∈ (cs.map (·.toNat - '0'.toNat)).reverse, d < 10 := by
  intro d hd
  rw [List.mem_reverse, List.mem_map] at hd
  obtain ⟨c, hc, rfl⟩ := hd
  obtain ⟨hlow, hhigh⟩ := toNat_of_isDigit (h c hc)
  exact Nat.sub_lt_left_of_lt_add hlow hhigh

/-- A number has a power of ten above it for its digits. -/
theorem decimalValue_lt {w : String} (h : ∀ c ∈ w.toList, isDigit c) :
    decimalValue w < 10 ^ w.length := by
  have hlt := Nat.ofDigits_lt_base_pow_length (by decide) (digit_lt_ten h)
  rw [List.length_reverse, List.length_map, String.length_toList] at hlt
  rwa [decimalValue, digitsValue_eq_ofDigits, Nat.mul_zero, Nat.add_zero]

/-- Digits without leading zeros are found again from their value. -/
theorem digits_digitsValue {cs : List Char} (h : ∀ c ∈ cs, isDigit c)
    (hhead : ∀ c ∈ cs.head?, c ≠ '0') :
    Nat.digits 10 (digitsValue 0 cs) = (cs.map (·.toNat - '0'.toNat)).reverse := by
  rw [digitsValue_eq_ofDigits, Nat.mul_zero, Nat.add_zero]
  apply Nat.digits_ofDigits 10 (by decide) _ (digit_lt_ten h)
  · -- the most significant digit is the first one, which is not zero
    intro hne hzero
    cases cs with
    | nil => exact hne rfl
    | cons c cs =>
      obtain ⟨hlow, -⟩ := toNat_of_isDigit (h c List.mem_cons_self)
      have hle : c.toNat ≤ 48 := by simpa [Nat.sub_eq_zero_iff_le] using hzero
      exact hhead c rfl (Char.toNat_inj.mp (Nat.le_antisymm hle hlow))

theorem map_ofNat_of_digits {cs : List Char} (h : ∀ c ∈ cs, isDigit c) :
    (cs.map (·.toNat - '0'.toNat)).map (fun d => Char.ofNat (d + 48)) = cs := by
  rw [List.map_map]
  refine (List.map_congr_left fun c hc => ?_).trans (List.map_id cs)
  have hback : c.toNat - '0'.toNat + 48 = c.toNat :=
    Nat.sub_add_cancel (toNat_of_isDigit (h c hc)).1
  rw [Function.comp_apply, hback, Char.ofNat_toNat, id]

/-- **Behind its leading zeros a run of digits is given by its value.** -/
theorem unpadded_of_digits {w : String} (h : ∀ c ∈ w.toList, isDigit c) : unpadded w =
    String.ofList ((Nat.digits 10 (decimalValue w)).reverse.map fun d => Char.ofNat (d + 48)) := by
  have hdigits : ∀ c ∈ w.toList.dropWhile (· == '0'), isDigit c :=
    fun c hc => h c ((List.dropWhile_sublist _).subset hc)
  have hhead : ∀ c ∈ (w.toList.dropWhile (· == '0')).head?, c ≠ '0' := by
    intro c hc
    simpa using not_of_mem_head?_dropWhile c hc
  rw [decimalValue, ← digitsValue_dropWhile, digits_digitsValue hdigits hhead, List.reverse_reverse,
    map_ofNat_of_digits hdigits, unpadded]

/-- **Two runs of digits denote the same number exactly when they are equal but for leading
zeros.** -/
theorem unpadded_eq_iff {v w : String} (hv : ∀ c ∈ v.toList, isDigit c)
    (hw : ∀ c ∈ w.toList, isDigit c) :
    unpadded v = unpadded w ↔ decimalValue v = decimalValue w := by
  constructor
  · intro h
    rw [← decimalValue_unpadded v, h, decimalValue_unpadded]
  · intro h
    rw [unpadded_of_digits hv, unpadded_of_digits hw, h]

/-! ## The digits of a number -/

/-- The decimal digits of a number behind a number of zeros. -/
def padded (zeros n : Nat) : String := String.ofList (List.replicate zeros '0') ++ toString n

theorem toList_padded (zeros n : Nat) :
    (padded zeros n).toList = List.replicate zeros '0' ++ Nat.toDigits 10 n := by
  rw [padded, String.toList_append, String.toList_ofList, Nat.toString_eq_repr, Nat.toList_repr]

theorem length_padded (zeros n : Nat) :
    (padded zeros n).length = zeros + (Nat.toDigits 10 n).length := by
  rw [← String.length_toList, toList_padded, List.length_append, List.length_replicate]

theorem digits_toDigits (n : Nat) : ∀ c ∈ Nat.toDigits 10 n, isDigit c := by
  intro c hc
  have hdigit : c.isDigit := Nat.isDigit_of_mem_toDigits (by decide) (by decide) hc
  simpa [isDigit, Char.isDigit, Char.le_def] using hdigit

/-- The digits of a number spell a number, with zeros before them or without. -/
theorem spells_padded (zeros n : Nat) : Spells .int (padded zeros n) := by
  apply Spells.number
  · intro hempty
    have hnil := congrArg String.toList hempty
    rw [toList_padded] at hnil
    exact Nat.toDigits_ne_nil (List.append_eq_nil_iff.mp hnil).2
  · intro c hc
    rw [toList_padded, List.mem_append] at hc
    rcases hc with hzero | hdigit
    · rw [List.eq_of_mem_replicate hzero]
      decide
    · exact digits_toDigits n c hdigit

/-- **A number is denoted by its digits**, however many zeros stand before them. -/
theorem decimalValue_padded (zeros n : Nat) : decimalValue (padded zeros n) = n := by
  have hzeros : ∀ c ∈ List.replicate zeros '0', c == '0' := by
    intro c hc
    rw [List.eq_of_mem_replicate hc]
    rfl
  calc decimalValue (padded zeros n)
      = digitsValue 0 ((List.replicate zeros '0' ++ Nat.toDigits 10 n).dropWhile (· == '0')) := by
        rw [digitsValue_dropWhile, decimalValue, toList_padded]
    _ = digitsValue 0 (Nat.toDigits 10 n) := by
        rw [List.dropWhile_append_of_pos hzeros, digitsValue_dropWhile]
    _ = n := Nat.ofDigitChars_ten_toDigits

end MonkeyFrontend
