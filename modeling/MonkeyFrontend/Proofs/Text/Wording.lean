import Mathlib.Data.List.Basic
import MonkeyFrontend.Parser.Diagnostic

/-! # The wording of diagnostics

No two diagnostics are worded alike (`Diagnostic.message_injective`), so the lines that a
report shows can be counted as the diagnostics that they stand for.
-/
namespace MonkeyFrontend

theorem Kind.text_injective : Function.Injective Kind.text := by
  intro k k' h
  have hread := Kind.ofText?_text k
  rw [h, Kind.ofText?_text] at hread
  exact (Option.some.inj hread).symm

/-- The text of a kind is one word. -/
theorem Kind.space_not_mem_text (k : Kind) : ' ' ∉ k.text.toList := by
  cases k <;> decide

/-- What stands before the first mark of a text, and what behind it. -/
theorem append_mark_inj {mark : Char} {a b c d : List Char} (ha : mark ∉ a) (hb : mark ∉ b)
    (h : a ++ mark :: c = b ++ mark :: d) : a = b ∧ c = d := by
  induction a generalizing b with
  | nil =>
    cases b with
    | nil => exact ⟨rfl, (List.cons.inj h).2⟩
    | cons y b => exact absurd (List.cons.inj h).1 fun he => hb (he ▸ List.mem_cons_self)
  | cons x a ih =>
    cases b with
    | nil => exact absurd (List.cons.inj h).1.symm fun he => ha (he ▸ List.mem_cons_self)
    | cons y b =>
      obtain ⟨rfl, htail⟩ := List.cons.inj h
      rw [List.mem_cons, not_or] at ha hb
      obtain ⟨rfl, rfl⟩ := ih ha.2 hb.2 htail
      exact ⟨rfl, rfl⟩

/-- The same of texts in which the mark opens a longer sign. -/
theorem append_sign_inj {mark : Char} {sign a b c d : String} {tail : List Char}
    (hsign : sign.toList = mark :: tail) (ha : mark ∉ a.toList) (hb : mark ∉ b.toList)
    (h : a ++ (sign ++ c) = b ++ (sign ++ d)) : a = b ∧ c = d := by
  have hchars := congrArg String.toList h
  simp only [String.toList_append, hsign, List.cons_append] at hchars
  obtain ⟨hab, hcd⟩ := append_mark_inj ha hb hchars
  exact ⟨String.toList_injective hab, String.toList_injective (List.append_cancel_left hcd)⟩

/-- What stands between two fixed texts. -/
theorem between_inj {a b before behind : String}
    (h : before ++ a ++ behind = before ++ b ++ behind) : a = b :=
  (String.append_right_inj before).mp ((String.append_left_inj behind).mp h)

namespace Diagnostic

/-- The letter that a diagnostic begins with. -/
def initial : Diagnostic → Char
  | unexpected _ _ => 'e'
  | noExpression _ => 'n'
  | badInteger _ => 'c'

theorem head?_message (d : Diagnostic) : d.message.toList.head? = some d.initial := by
  have hhead : ∀ {a : String} {c : Char}, a.toList.head? = some c →
      ∀ b, (a ++ b).toList.head? = some c := by
    intro a c ha b
    rw [String.toList_append]
    exact List.mem_head?_append_of_mem_head? ha
  cases d with
  | unexpected =>
    have hfixed : "expected next token to be ".toList.head? = some 'e' := by decide
    exact hhead (hhead (hhead (hhead hfixed _) _) _) _
  | noExpression =>
    have hfixed : "no prefix parse function for ".toList.head? = some 'n' := by decide
    exact hhead (hhead hfixed _) _
  | badInteger =>
    have hfixed : "could not parse ".toList.head? = some 'c' := by decide
    exact hhead (hhead hfixed _) _

/-- An unmet expectation names both its kinds. -/
theorem unexpected_inj {k f k' f' : Kind}
    (h : (unexpected k f).message = (unexpected k' f').message) : k = k' ∧ f = f' := by
  have hcut : "expected next token to be " ++ (k.text ++ (", got " ++ f.text)) =
      "expected next token to be " ++ (k'.text ++ (", got " ++ f'.text)) := by
    rw [← String.append_assoc, ← String.append_assoc, ← String.append_assoc, ← String.append_assoc]
    exact (String.append_left_inj " instead").mp h
  have hlist := congrArg String.toList ((String.append_right_inj _).mp hcut)
  -- the comma closes the word, so that what stands before the first space is cut off
  have hgot : ∀ k f : Kind, (k.text ++ (", got " ++ f.text)).toList =
      (k.text.toList ++ [',']) ++ ' ' :: ("got ".toList ++ f.text.toList) := by
    intro k f
    have hfixed : ", got ".toList = [','] ++ ' ' :: "got ".toList := by decide
    rw [String.toList_append, String.toList_append, hfixed, List.append_assoc, List.append_assoc]
    rfl
  have hword : ∀ k : Kind, ' ' ∉ k.text.toList ++ [','] := by
    intro k
    rw [List.mem_append, not_or]
    exact ⟨k.space_not_mem_text, by decide⟩
  rw [hgot, hgot] at hlist
  obtain ⟨hwanted, hfound⟩ := append_mark_inj (hword k) (hword k') hlist
  exact ⟨Kind.text_injective (String.toList_injective (List.append_cancel_right hwanted)),
    Kind.text_injective (String.toList_injective (List.append_cancel_left hfound))⟩

/-- **No two diagnostics are worded alike.** -/
theorem message_injective : Function.Injective message := by
  intro d d' h
  have hinitial : some d.initial = some d'.initial := by
    rw [← head?_message, ← head?_message, h]
  cases d with
  | unexpected k f =>
    cases d' with
    | unexpected k' f' =>
      obtain ⟨rfl, rfl⟩ := unexpected_inj h
      rfl
    | noExpression | badInteger => simp [initial] at hinitial
  | noExpression k =>
    cases d' with
    | noExpression k' => rw [Kind.text_injective (between_inj h)]
    | unexpected | badInteger => simp [initial] at hinitial
  | badInteger w =>
    cases d' with
    | badInteger w' => rw [between_inj h]
    | unexpected | noExpression => simp [initial] at hinitial

end Diagnostic
end MonkeyFrontend
