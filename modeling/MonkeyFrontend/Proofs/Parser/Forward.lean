import Mathlib.Logic.Function.Iterate
import MonkeyFrontend.Proofs.Parser.Run

/-! # Parsers only move forward

Whatever is read, and wherever, the supply ends at a place that moving on leads to
(`Run.ahead`), and a list of statements ends at its closing token or at the end of the text.
-/
namespace MonkeyFrontend

open TokenSupply

/-! ## Places ahead -/

/-- The supply `t` lies ahead of `s`: moving on leads from the one to the other. -/
def Ahead {σ : Type} [TokenSupply σ] (s t : σ) : Prop := ∃ n, t = advance^[n] s

namespace Ahead

variable {σ : Type} [TokenSupply σ] {s t u : σ}

theorem refl (s : σ) : Ahead s s := ⟨0, rfl⟩

theorem next (s : σ) : Ahead s (advance s) := ⟨1, rfl⟩

theorem trans (h : Ahead s t) (h' : Ahead t u) : Ahead s u := by
  obtain ⟨m, rfl⟩ := h
  obtain ⟨n, rfl⟩ := h'
  exact ⟨n + m, (Function.iterate_add_apply _ _ _ _).symm⟩

theorem of_advance (h : Ahead (advance s) t) : Ahead s t := (next s).trans h

theorem advance (h : Ahead s t) : Ahead s (advance t) := h.trans (next t)

/-- What moving on preserves holds at every place ahead. -/
theorem preserves {P : σ → Prop} (h : Ahead s t) (hstep : ∀ u, P u → P (TokenSupply.advance u))
    (hs : P s) : P t := by
  obtain ⟨n, rfl⟩ := h
  induction n with
  | zero => exact hs
  | succ n ih =>
    rw [Function.iterate_succ_apply']
    exact hstep _ ih

end Ahead

namespace Parser

variable {σ : Type} [TokenSupply σ]

/-- **No run goes back.** -/
theorem Run.ahead {c : Construct} {s t : σ} {v : c.Value} {ds : List Diagnostic}
    (h : Run c s v ds t) : Ahead s t := by
  induction h with
  -- Nothing is taken.
  | identifier | integer | integer_bad | boolean | operand_missing | operators_stop
  | conditional_bare | alternative_absent | function_bare | braced_missing | statements_stop
  | letting_bare | lastValue_stop | parameters_bare | moreParameters_open => exact .refl _
  -- One token is taken.
  | letting_open | lastValue_closed | parameters_none | moreParameters_bare
  | moreParameters_end => exact .next _
  -- All is left to one part.
  | expression_missing _ ih | branches_missing _ ih => exact ih
  | operand_unary _ _ ih | operand_grouped _ _ ih | operand_conditional _ _ ih
  | operand_function _ _ ih | statement_letting _ _ ih | statement_returning _ _ ih
  | expressionStatement _ _ ih => exact ih
  | statement_expression _ _ _ ih => exact ih
  | expressionStatement_closed _ _ ih => exact ih.advance
  -- A part is read behind the first tokens.
  | binary _ ih | unary _ ih | block _ ih | returning _ ih => exact ih.of_advance
  | grouped_open _ _ ih | alternative _ _ ih | function_open _ _ ih | braced _ _ ih
  | parameters _ _ ih => exact ih.of_advance
  | grouped _ _ ih => exact ih.of_advance.advance
  | conditional_open _ _ _ ih => exact ih.of_advance.of_advance
  | letting _ _ _ ih => exact ih.of_advance.of_advance.of_advance
  | moreParameters _ _ _ ih => exact ih.of_advance.of_advance
  -- A second part is read behind the first.
  | expression _ _ ih₁ ih₂ | branches _ _ ih₁ ih₂ | value _ _ ih₁ ih₂ => exact ih₁.trans ih₂
  | operators_step _ _ _ ih₁ ih₂ | function _ _ _ ih₁ ih₂ => exact ih₁.of_advance.trans ih₂
  | lastValue_step _ _ _ _ ih₁ ih₂ => exact ih₁.of_advance.trans ih₂
  | statements_step _ _ _ ih₁ ih₂ => exact ih₁.trans ih₂.of_advance
  | conditional _ _ _ _ ih₁ ih₂ => exact ih₁.of_advance.of_advance.trans ih₂.of_advance

/-- Where a run over statements ends. -/
def Construct.End (t : σ) : Construct → Prop
  | .statements k => (current t).kind = k ∨ (current t).kind = .eof
  | _ => True

/-- Statements end at their closing token or at the end of the text. -/
theorem Run.statements_end {c : Construct} {s t : σ} {v : c.Value} {ds : List Diagnostic}
    (h : Run c s v ds t) : c.End t := by
  induction h with
  | statements_stop h => exact h
  | statements_step _ _ _ _ ih => exact ih
  | _ => trivial

end Parser
end MonkeyFrontend
