import Mathlib.Algebra.Ring.Int.Defs
import Mathlib.Data.List.Infix

/-! # Balanced words

The letters of a word have weights: an opening letter weighs one, a closing letter minus one, any
other nothing.  No letter closes what was not opened when no first letters of the word weigh less
than nothing (`NeverBelow`), and all is closed when the whole word weighs nothing.
-/
namespace MonkeyFrontend

variable {α : Type} {weight : α → Int} {a b : α} {l m : List α}

/-- The weight of a word. -/
def total (weight : α → Int) (l : List α) : Int := (l.map weight).sum

/-- The first letters of a word never weigh less than nothing. -/
def NeverBelow (weight : α → Int) (l : List α) : Prop := ∀ p, p <+: l → 0 ≤ total weight p

theorem total_nil (weight : α → Int) : total weight [] = 0 := rfl

theorem total_cons (weight : α → Int) (a : α) (l : List α) :
    total weight (a :: l) = weight a + total weight l := List.sum_cons

theorem total_append (weight : α → Int) (l m : List α) :
    total weight (l ++ m) = total weight l + total weight m := by
  rw [total, List.map_append, List.sum_append]
  rfl

/-- Letters without weight have none together. -/
theorem total_of_weightless (h : ∀ a ∈ l, weight a = 0) : total weight l = 0 := by
  induction l with
  | nil => rfl
  | cons a l ih =>
    obtain ⟨ha, hl⟩ := List.forall_mem_cons.mp h
    rw [total_cons, ha, ih hl, Int.add_zero]

/-- The weight of a word is how many more letters open than close. -/
theorem total_eq_count [DecidableEq α] (hab : a ≠ b)
    (hweight : ∀ c, weight c = if c = a then 1 else if c = b then -1 else 0) (l : List α) :
    total weight l = l.count a - l.count b := by
  induction l with
  | nil => rfl
  | cons c l ih =>
    rw [total_cons, ih, hweight, List.count_cons, List.count_cons]
    by_cases ha : c = a
    · subst ha
      simp [hab]
      omega
    · by_cases hb : c = b
      · subst hb
        simp [ha]
        omega
      · simp [ha, hb]

namespace NeverBelow

theorem nil : NeverBelow weight [] := by
  intro p hp
  rw [List.prefix_nil.mp hp]
  exact Int.le_refl 0

theorem of_weightless (h : ∀ a ∈ l, weight a = 0) : NeverBelow weight l :=
  fun _ hp => Int.le_of_eq (total_of_weightless fun a ha => h a (hp.subset ha)).symm

/-- A letter that closes nothing may stand first. -/
theorem cons (h : NeverBelow weight l) (ha : 0 ≤ weight a) : NeverBelow weight (a :: l) := by
  intro p hp
  rcases List.prefix_cons_iff.mp hp with rfl | ⟨q, rfl, hq⟩
  · exact Int.le_refl 0
  · rw [total_cons]
    exact Int.add_nonneg ha (h q hq)

/-- A word that closes all it opens may stand before another. -/
theorem append (h : NeverBelow weight l) (hl : total weight l = 0) (h' : NeverBelow weight m) :
    NeverBelow weight (l ++ m) := by
  intro p hp
  rcases List.prefix_or_prefix_of_prefix hp (List.prefix_append l m) with hle | ⟨q, rfl⟩
  · exact h p hle
  · rw [total_append, hl, Int.zero_add]
    exact h' q ((List.prefix_append_right_inj l).mp hp)

/-- A word that closes all it opens may stand between two letters that open and close. -/
theorem wrap (h : NeverBelow weight l) (hl : total weight l = 0) (ha : weight a = 1)
    (hb : weight b = -1) :
    NeverBelow weight (a :: l ++ [b]) ∧ total weight (a :: l ++ [b]) = 0 := by
  have hclosed : total weight (a :: l ++ [b]) = 0 := by
    rw [total_append, total_cons, total_cons, total_nil, hl, ha, hb]
    rfl
  refine ⟨fun p hp => ?_, hclosed⟩
  rcases List.prefix_concat_iff.mp hp with rfl | hinner
  · exact Int.le_of_eq hclosed.symm
  · exact h.cons (ha ▸ Int.one_nonneg) p hinner

end NeverBelow
end MonkeyFrontend
