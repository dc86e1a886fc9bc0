import MonkeyFrontend.Proofs.Parser.Call
import MonkeyFrontend.Proofs.Source.Cutting
import MonkeyFrontend.Proofs.Text.Decimal
import MonkeyFrontend.Tree.Data
import MonkeyFrontend.Tree.Render

/-! # Numbers are converted up to the limit of digits

The digits of a number are one token, and wherever a reader comes to this token it gets the number
back from it, as long as there are no more digits than the limit (`Reader.numbers_exact`).  The limit
counts the digits of the text: zeros before a number count, though they change neither its value nor
its data.
-/
namespace MonkeyFrontend

open TokenSupply

namespace Parser

/-! ## Values within the limit -/

theorem integerValue?_eq_some_iff {w : String} {n : Nat} (hw : Spells .int w) :
    integerValue? w = some n ↔ w.length ≤ maxDigits ∧ n = decimalValue w := by
  rw [integerValue?, decimal?_of_digits hw.digits.1 hw.digits.2, Option.ite_none_right_eq_some,
    Option.some_inj, eq_comm (a := n)]

theorem integerValue?_eq_none_iff {w : String} (hw : Spells .int w) :
    integerValue? w = none ↔ maxDigits < w.length := by
  rw [integerValue?, decimal?_of_digits hw.digits.1 hw.digits.2]
  simp

end Parser

/-- An integer is laid out as its decimal digits. -/
theorem Json.layout_int (n : Nat) : (Json.int n).layout = toString n := by
  have hwritten : (Json.int n).write 0 [] = (toString n).toList ++ [] := rfl
  rw [layout, hwritten, List.append_nil, String.ofList_toList]

namespace Reader

/-! ## Readers on a number -/

section

variable {σ : Type} [TokenSupply σ] {r : Reader σ}

/-- A reader on a number within the limit answers with its value and stays as it is. -/
theorem perform_integer {n : Nat} (h : Parser.integerValue? (current r.stream).literal = some n) :
    r.perform .integer = (.tree (some (.expression (.integer (current r.stream) n))), r) := by
  have hread : Parser.integer r.stream = .pure r.stream (some (.integer (current r.stream) n)) := by
    rw [Parser.integer, h]
  rw [perform, hread, acceptExpr, accept, Outcome.pure, List.append_nil]
  rfl

/-- A reader on a number beyond the limit reports it, stays where it is and answers with nothing. -/
theorem perform_integer_bad (h : Parser.integerValue? (current r.stream).literal = none) :
    r.perform .integer = (.tree none,
      ⟨r.stream, r.diagnostics ++ [.badInteger (current r.stream).literal]⟩) := by
  have hread : Parser.integer r.stream =
      .report r.stream none (.badInteger (current r.stream).literal) := by
    rw [Parser.integer, h]
  rw [perform, hread]
  rfl

/-- Such a number begins no expression, in whatever context. -/
theorem perform_expression_bad (hkind : (current r.stream).kind = .int)
    (h : Parser.integerValue? (current r.stream).literal = none) (p : Precedence) :
    r.perform (.expression p) = (.tree none,
      ⟨r.stream, r.diagnostics ++ [.badInteger (current r.stream).literal]⟩) := by
  have hrun : Parser.Run (.expression p) r.stream none _ r.stream :=
    .expression_missing (.integer_bad hkind h)
  exact accept_of_gives hrun.gives fun e => .tree (e.map .expression)

end

/-- **Numbers are converted exactly up to the limit.**  The digits of `n`, behind any zeros, are one
token of the text that they form.  A reader that stands on such a token, at whatever place and of
whatever text, is asked for a number: if these are at most 4300 digits, it answers with `n`, shown by
the text as it stands and laid out without the zeros, and is as it was before; if they are more, it
answers with nothing, also when it is asked for an expression, and adds the one diagnostic that says
so. -/
theorem numbers_exact (zeros n : Nat) :
    tokenize (padded zeros n) =
      [⟨.int, padded zeros n, .start⟩, .eof (.behind (padded zeros n).toList)] ∧
    ∀ {σ : Type} [TokenSupply σ] (r : Reader σ) (place : Position),
      current r.stream = ⟨.int, padded zeros n, place⟩ →
      ((padded zeros n).length ≤ 4300 → ∃ e : Expr,
        r.perform .integer = (.tree (some (.expression e)), r) ∧
        e = .integer ⟨.int, padded zeros n, place⟩ n ∧ e.render = padded zeros n ∧
        e.toJson = (current r.stream).record "IntegerLiteral" [("value", .int n)] ∧
        (Json.int n).layout = toString n) ∧
      (4300 < (padded zeros n).length → ∀ call, (call = .integer ∨ ∃ p, call = .expression p) →
        r.perform call =
          (.tree none, ⟨r.stream, r.diagnostics ++ [.badInteger (padded zeros n)]⟩) ∧
        (Diagnostic.badInteger (padded zeros n)).message =
          "could not parse " ++ padded zeros n ++ " as integer") := by
  have hspells := spells_padded zeros n
  refine ⟨tokenize_of_spells hspells, fun r place hcurrent => ?_⟩
  have hliteral : (current r.stream).literal = padded zeros n := by rw [hcurrent]
  refine ⟨fun hle => ?_, fun hlt call hcall => ?_⟩
  · have hvalue : Parser.integerValue? (current r.stream).literal = some n := by
      rw [hliteral, Parser.integerValue?_eq_some_iff hspells]
      exact ⟨hle, (decimalValue_padded zeros n).symm⟩
    have hanswer := perform_integer hvalue
    rw [hcurrent] at hanswer ⊢
    exact ⟨_, hanswer, rfl, rfl, rfl, Json.layout_int n⟩
  · have hvalue : Parser.integerValue? (current r.stream).literal = none := by
      rw [hliteral, Parser.integerValue?_eq_none_iff hspells]
      exact hlt
    have hkind : (current r.stream).kind = .int := by rw [hcurrent]
    refine ⟨?_, rfl⟩
    rw [← hliteral]
    rcases hcall with rfl | ⟨p, rfl⟩
    · exact perform_integer_bad hvalue
    · exact perform_expression_bad hkind hvalue p

/-- A number behind two zeros in a text, and one digit behind so many zeros that it is one too
long. -/
theorem numbers_exact_limit :
    (current (ofSource "let x = 007;" 3).stream = ⟨.int, padded 2 7, ⟨1, 9⟩⟩ ∧
      (padded 2 7).length ≤ 4300 ∧ ∃ e : Expr, e = .integer ⟨.int, "007", ⟨1, 9⟩⟩ 7 ∧
        (ofSource "let x = 007;" 3).perform .integer =
          (.tree (some (.expression e)), ofSource "let x = 007;" 3)) ∧
    ∃ r : Reader TokenStream, current r.stream = ⟨.int, padded 4300 7, .start⟩ ∧
      4300 < (padded 4300 7).length ∧
      r.perform (.expression .sum) =
        (.tree none, ⟨r.stream, r.diagnostics ++ [.badInteger (padded 4300 7)]⟩) := by
  have hseven : padded 2 7 = "007" := by decide
  have hshort : (padded 2 7).length ≤ 4300 := by rw [hseven]; decide
  have hlong : 4300 < (padded 4300 7).length := by rw [length_padded]; decide
  have hcurrent : current (ofSource "let x = 007;" 3).stream = ⟨.int, padded 2 7, ⟨1, 9⟩⟩ := by
    rw [hseven]
    decide
  obtain ⟨e, hanswer, he, -⟩ := ((numbers_exact 2 7).2 _ _ hcurrent).1 hshort
  rw [hseven] at he
  have hbad := ((numbers_exact 4300 7).2
    (Reader.mk (TokenStream.mk [⟨.int, padded 4300 7, .start⟩] .start) []) .start rfl).2 hlong
  exact ⟨⟨hcurrent, hshort, e, he, hanswer⟩, _, rfl, hlong, (hbad _ (Or.inr ⟨.sum, rfl⟩)).1⟩

end Reader
end MonkeyFrontend
