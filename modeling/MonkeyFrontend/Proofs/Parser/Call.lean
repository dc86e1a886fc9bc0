import MonkeyFrontend.Proofs.Parser.Run

/-! # Runs and calls

A run is exactly a call (`run_iff`): every call has a run, which is finite, and only the
one.  The functions that read constructs are opened here, once for each rule, and nowhere
else.
-/
namespace MonkeyFrontend
namespace Parser

open TokenSupply

variable {σ : Type} [TokenSupply σ]

/-! ## What is read on a token of each kind -/

/-- An expectation that is met moves on. -/
theorem expect_of_eq {k : Kind} {s : σ} (h : (upcoming s).kind = k) :
    expect k s = ⟨true, [], advance s, size_advance_le s⟩ := if_pos h

/-- An expectation that is not met is reported. -/
theorem expect_of_ne {k : Kind} {s : σ} (h : (upcoming s).kind ≠ k) :
    expect k s = ⟨false, [.unexpected k (upcoming s).kind], s, Nat.le_refl _⟩ := if_neg h

section OnKind

variable {s : σ}

theorem operand_of_ident (h : (current s).kind = .ident) :
    operand s = (identifier s).map some := by
  rw [operand]
  split <;> simp_all

theorem operand_of_int (h : (current s).kind = .int) : operand s = integer s := by
  rw [operand]
  split <;> simp_all

theorem operand_of_boolean
    (h : (current s).kind = .trueWord ∨ (current s).kind = .falseWord) :
    operand s = (boolean s).map some := by
  rw [operand]
  split <;> simp_all

theorem operand_of_sign (h : (current s).kind = .bang ∨ (current s).kind = .minus) :
    operand s = (unary s).map some := by
  rw [operand]
  split <;> simp_all

theorem operand_of_lparen (h : (current s).kind = .lparen) : operand s = grouped s := by
  rw [operand]
  split <;> simp_all

theorem operand_of_if (h : (current s).kind = .ifWord) : operand s = conditional s := by
  rw [operand]
  split <;> simp_all

theorem operand_of_function (h : (current s).kind = .functionWord) :
    operand s = function s := by
  rw [operand]
  split <;> simp_all

theorem operand_of_not_startsExpression (h : (current s).kind.startsExpression = false) :
    operand s = .report s none (.noExpression (current s).kind) := by
  rw [operand]
  split <;> simp_all [Kind.startsExpression]

theorem statement_of_let (h : (current s).kind = .letWord) : statement s = letting s := by
  rw [statement]
  split <;> simp_all

theorem statement_of_return (h : (current s).kind = .returnWord) :
    statement s = returning s := by
  rw [statement]
  split <;> simp_all

theorem statement_of_expression (h₁ : (current s).kind ≠ .letWord)
    (h₂ : (current s).kind ≠ .returnWord) : statement s = expressionStatement s := by
  rw [statement]
  split <;> simp_all

end OnKind

/-! ## Every run is a call -/

/-- The outcome `o` is made of `v`, `ds` and `t`. -/
def Gives {α : Type} {s : σ} (o : Outcome α s) (v : α) (ds : List Diagnostic) (t : σ) : Prop :=
  ∃ hle, o = ⟨v, ds, t, hle⟩

theorem gives_of_eq {α : Type} {s t : σ} {o : Outcome α s} {v : α} {ds : List Diagnostic}
    (hv : o.value = v) (hds : o.found = ds) (ht : o.stream = t) : Gives o v ds t := by
  subst hv hds ht
  exact ⟨o.size_le, rfl⟩

/-- A call gives what its run says. -/
theorem Run.gives {c : Construct} {s t : σ} {v : c.Value} {ds : List Diagnostic}
    (h : Run c s v ds t) : Gives (c.read s) v ds t := by
  induction h with
  | expression_missing _ ih =>
    obtain ⟨_, ih⟩ := ih
    simp only [Construct.read] at *
    rw [Parser.expression, ih]
    exact ⟨_, rfl⟩
  | expression _ _ ih₁ ih₂ =>
    obtain ⟨_, ih₁⟩ := ih₁
    obtain ⟨_, ih₂⟩ := ih₂
    simp only [Construct.read] at *
    rw [Parser.expression, ih₁]
    dsimp only
    rw [ih₂]
    exact ⟨_, rfl⟩
  | identifier hk =>
    simp only [Construct.read]
    rw [operand_of_ident hk]
    exact ⟨_, rfl⟩
  | integer hk hn | integer_bad hk hn =>
    simp only [Construct.read]
    rw [operand_of_int hk, Parser.integer, hn]
    exact ⟨_, rfl⟩
  | boolean hk =>
    simp only [Construct.read]
    rw [operand_of_boolean hk]
    exact ⟨_, rfl⟩
  | operand_unary hk _ ih =>
    obtain ⟨_, ih⟩ := ih
    simp only [Construct.read] at *
    rw [operand_of_sign hk, ih]
    exact ⟨_, rfl⟩
  | operand_grouped hk _ ih =>
    simp only [Construct.read] at *
    rwa [operand_of_lparen hk]
  | operand_conditional hk _ ih =>
    simp only [Construct.read] at *
    rwa [operand_of_if hk]
  | operand_function hk _ ih =>
    simp only [Construct.read] at *
    rwa [operand_of_function hk]
  | operand_missing hk =>
    simp only [Construct.read]
    rw [operand_of_not_startsExpression hk]
    exact ⟨_, rfl⟩
  | operators_stop h =>
    simp only [Construct.read]
    rw [Parser.operators, dif_neg h]
    exact ⟨_, rfl⟩
  | operators_step h _ _ ih₁ ih₂ =>
    obtain ⟨_, ih₁⟩ := ih₁
    obtain ⟨_, ih₂⟩ := ih₂
    simp only [Construct.read] at *
    rw [Parser.operators, dif_pos h, ih₁]
    dsimp only
    rw [ih₂]
    exact ⟨_, rfl⟩
  | binary _ ih =>
    obtain ⟨_, ih⟩ := ih
    simp only [Construct.read] at *
    rw [Parser.binary, ih]
    exact ⟨_, rfl⟩
  | unary _ ih =>
    obtain ⟨_, ih⟩ := ih
    simp only [Construct.read] at *
    rw [Parser.unary, ih]
    exact ⟨_, rfl⟩
  | grouped _ h ih =>
    obtain ⟨_, ih⟩ := ih
    simp only [Construct.read] at *
    rw [Parser.grouped, ih]
    dsimp only
    rw [expect_of_eq h]
    exact gives_of_eq rfl (List.append_nil _) rfl
  | grouped_open _ h ih =>
    obtain ⟨_, ih⟩ := ih
    simp only [Construct.read] at *
    rw [Parser.grouped, ih]
    dsimp only
    rw [expect_of_ne h]
    exact ⟨_, rfl⟩
  | conditional_bare h =>
    simp only [Construct.read]
    rw [Parser.conditional, expect_of_ne h]
    exact ⟨_, rfl⟩
  | conditional_open h₁ _ h₂ ih =>
    obtain ⟨_, ih⟩ := ih
    simp only [Construct.read] at *
    rw [Parser.conditional, expect_of_eq h₁]
    dsimp only
    rw [ih]
    dsimp only
    rw [expect_of_ne h₂]
    exact ⟨_, rfl⟩
  | conditional h₁ _ h₂ _ ih₁ ih₂ =>
    obtain ⟨_, ih₁⟩ := ih₁
    obtain ⟨_, ih₂⟩ := ih₂
    simp only [Construct.read] at *
    rw [Parser.conditional, expect_of_eq h₁]
    dsimp only
    rw [ih₁]
    dsimp only
    rw [expect_of_eq h₂]
    dsimp only
    rw [ih₂]
    exact ⟨_, rfl⟩
  | branches_missing _ ih =>
    obtain ⟨_, ih⟩ := ih
    simp only [Construct.read] at *
    rw [Parser.branches, ih]
    exact ⟨_, rfl⟩
  | branches _ _ ih₁ ih₂ =>
    obtain ⟨_, ih₁⟩ := ih₁
    obtain ⟨_, ih₂⟩ := ih₂
    simp only [Construct.read] at *
    rw [Parser.branches, ih₁]
    dsimp only
    rw [ih₂]
    exact ⟨_, rfl⟩
  | alternative h _ ih =>
    obtain ⟨_, ih⟩ := ih
    simp only [Construct.read] at *
    rw [Parser.alternative, if_pos h, ih]
    exact ⟨_, rfl⟩
  | alternative_absent h =>
    simp only [Construct.read]
    rw [Parser.alternative, if_neg h]
    exact ⟨_, rfl⟩
  | function_bare h =>
    simp only [Construct.read]
    rw [Parser.function, expect_of_ne h]
    exact ⟨_, rfl⟩
  | function_open h _ ih =>
    obtain ⟨_, ih⟩ := ih
    simp only [Construct.read] at *
    rw [Parser.function, expect_of_eq h]
    dsimp only
    rw [ih]
    exact ⟨_, rfl⟩
  | function h _ _ ih₁ ih₂ =>
    obtain ⟨_, ih₁⟩ := ih₁
    obtain ⟨_, ih₂⟩ := ih₂
    simp only [Construct.read] at *
    rw [Parser.function, expect_of_eq h]
    dsimp only
    rw [ih₁]
    dsimp only
    rw [ih₂]
    exact ⟨_, rfl⟩
  | braced h _ ih =>
    obtain ⟨_, ih⟩ := ih
    simp only [Construct.read] at *
    rw [Parser.braced, expect_of_eq h]
    dsimp only
    rw [ih]
    exact ⟨_, rfl⟩
  | braced_missing h =>
    simp only [Construct.read]
    rw [Parser.braced, expect_of_ne h]
    exact ⟨_, rfl⟩
  | block _ ih =>
    obtain ⟨_, ih⟩ := ih
    simp only [Construct.read] at *
    rw [Parser.block, ih]
    exact ⟨_, rfl⟩
  | statements_stop h =>
    simp only [Construct.read]
    rw [Parser.statements, dif_pos h]
    exact ⟨_, rfl⟩
  | statements_step h _ _ ih₁ ih₂ =>
    obtain ⟨_, ih₁⟩ := ih₁
    obtain ⟨_, ih₂⟩ := ih₂
    simp only [Construct.read] at *
    rw [Parser.statements, dif_neg h, ih₁]
    dsimp only
    rw [ih₂]
    exact ⟨_, rfl⟩
  | statement_letting hk _ ih =>
    simp only [Construct.read] at *
    rwa [statement_of_let hk]
  | statement_returning hk _ ih =>
    simp only [Construct.read] at *
    rwa [statement_of_return hk]
  | statement_expression h₁ h₂ _ ih =>
    simp only [Construct.read] at *
    rwa [statement_of_expression h₁ h₂]
  | letting_bare h =>
    simp only [Construct.read]
    rw [Parser.letting, expect_of_ne h]
    exact ⟨_, rfl⟩
  | letting_open h₁ h₂ =>
    simp only [Construct.read]
    rw [Parser.letting, expect_of_eq h₁]
    dsimp only
    rw [expect_of_ne h₂, ← upcoming_eq]
    exact ⟨_, rfl⟩
  | letting h₁ h₂ _ ih =>
    obtain ⟨_, ih⟩ := ih
    simp only [Construct.read] at *
    rw [Parser.letting, expect_of_eq h₁]
    dsimp only
    rw [expect_of_eq h₂, ← upcoming_eq]
    dsimp only
    rw [ih]
    exact ⟨_, rfl⟩
  | returning _ ih =>
    obtain ⟨_, ih⟩ := ih
    simp only [Construct.read] at *
    rw [Parser.returning, ih]
    exact ⟨_, rfl⟩
  | expressionStatement_closed _ h ih =>
    obtain ⟨_, ih⟩ := ih
    simp only [Construct.read] at *
    rw [Parser.expressionStatement, ih]
    dsimp only
    rw [if_pos h]
    exact gives_of_eq rfl (List.append_nil _) rfl
  | expressionStatement _ h ih =>
    obtain ⟨_, ih⟩ := ih
    simp only [Construct.read] at *
    rw [Parser.expressionStatement, ih]
    dsimp only
    rw [if_neg h]
    exact ⟨_, rfl⟩
  | value _ _ ih₁ ih₂ =>
    obtain ⟨_, ih₁⟩ := ih₁
    obtain ⟨_, ih₂⟩ := ih₂
    simp only [Construct.read] at *
    rw [Parser.value, ih₁]
    dsimp only
    rw [ih₂]
    exact ⟨_, rfl⟩
  | lastValue_stop h =>
    simp only [Construct.read]
    rw [Parser.lastValue, dif_pos h]
    exact ⟨_, rfl⟩
  | lastValue_closed h₁ h₂ =>
    simp only [Construct.read]
    rw [Parser.lastValue, dif_neg h₁, if_pos h₂]
    exact ⟨_, rfl⟩
  | lastValue_step h₁ h₂ _ _ ih₁ ih₂ =>
    obtain ⟨_, ih₁⟩ := ih₁
    obtain ⟨_, ih₂⟩ := ih₂
    simp only [Construct.read] at *
    rw [Parser.lastValue, dif_neg h₁, if_neg h₂, ih₁]
    dsimp only
    rw [ih₂]
    exact ⟨_, rfl⟩
  | parameters_none h =>
    simp only [Construct.read]
    rw [Parser.parameters, if_pos h]
    exact ⟨_, rfl⟩
  | parameters_bare h₁ h₂ =>
    simp only [Construct.read]
    rw [Parser.parameters, if_neg h₁, expect_of_ne h₂]
    exact ⟨_, rfl⟩
  | parameters h _ ih =>
    obtain ⟨_, ih⟩ := ih
    simp only [Construct.read] at *
    rw [Parser.parameters, if_neg (by simp [h]), expect_of_eq h]
    dsimp only
    rw [ih, ← upcoming_eq]
    exact ⟨_, rfl⟩
  | moreParameters_bare h₁ h₂ =>
    simp only [Construct.read]
    rw [Parser.moreParameters, dif_pos h₁, expect_of_ne h₂]
    exact ⟨_, rfl⟩
  | moreParameters h₁ h₂ _ ih =>
    obtain ⟨_, ih⟩ := ih
    simp only [Construct.read] at *
    rw [Parser.moreParameters, dif_pos h₁, expect_of_eq h₂]
    dsimp only
    rw [ih, ← upcoming_eq]
    exact ⟨_, rfl⟩
  | moreParameters_end h =>
    simp only [Construct.read]
    rw [Parser.moreParameters, dif_neg (by simp [h]), expect_of_eq h]
    exact ⟨_, rfl⟩
  | moreParameters_open h₁ h₂ =>
    simp only [Construct.read]
    rw [Parser.moreParameters, dif_neg h₁, expect_of_ne h₂]
    exact ⟨_, rfl⟩

/-- No run goes back. -/
theorem Run.size_le {c : Construct} {s t : σ} {v : c.Value} {ds : List Diagnostic}
    (h : Run c s v ds t) : size t ≤ size s := h.gives.1

/-! ## Every call has a run -/

/-- What bounds the calls that a call leads to: the tokens ahead first, and then how much is
left to do before the next token. -/
def Construct.measure (s : σ) : Construct → Nat
  | expression _ => 16 * size s + 3
  | operand => 16 * size s + 2
  | operators _ _ => 16 * size s + 1
  | binary _ | unary | grouped | block | letting | returning => 16 * size (advance s) + 8
  | conditional | function => 16 * size (advance s) + 12
  | branches _ _ => 16 * size (advance s) + 11
  | alternative => 16 * size (advance s) + 10
  | braced => 16 * size (advance s) + 9
  | statements _ => 16 * size s + 6
  | statement => 16 * size s + 5
  | expressionStatement | value => 16 * size s + 4
  | lastValue _ => 16 * size s + 2
  | parameters => 16 * size s + 1
  | moreParameters => 16 * size s

/-- **Every call of a parser ends**: it has a run, and a run is finite. -/
theorem exists_run : (c : Construct) → (s : σ) → ∃ v ds t, Run c s v ds t
  | .expression p, s => by
    obtain ⟨v, ds, t, h⟩ := exists_run .operand s
    cases v with
    | none => exact ⟨_, _, _, .expression_missing h⟩
    | some left =>
      have := h.size_le
      obtain ⟨e, es, u, h'⟩ := exists_run (.operators p left) t
      exact ⟨_, _, _, .expression h h'⟩
  | .operand, s => by
    by_cases hs : (current s).kind.startsExpression
    · have := size_advance_lt s (fun h => by simp [h, Kind.startsExpression] at hs)
      cases hk : (current s).kind with
      | ident => exact ⟨_, _, _, .identifier hk⟩
      | int =>
        cases hn : integerValue? (current s).literal with
        | none => exact ⟨_, _, _, .integer_bad hk hn⟩
        | some n => exact ⟨_, _, _, .integer hk hn⟩
      | trueWord => exact ⟨_, _, _, .boolean (Or.inl hk)⟩
      | falseWord => exact ⟨_, _, _, .boolean (Or.inr hk)⟩
      | bang =>
        obtain ⟨e, ds, t, h⟩ := exists_run .unary s
        exact ⟨_, _, _, .operand_unary (Or.inl hk) h⟩
      | minus =>
        obtain ⟨e, ds, t, h⟩ := exists_run .unary s
        exact ⟨_, _, _, .operand_unary (Or.inr hk) h⟩
      | lparen =>
        obtain ⟨v, ds, t, h⟩ := exists_run .grouped s
        exact ⟨_, _, _, .operand_grouped hk h⟩
      | ifWord =>
        obtain ⟨v, ds, t, h⟩ := exists_run .conditional s
        exact ⟨_, _, _, .operand_conditional hk h⟩
      | functionWord =>
        obtain ⟨v, ds, t, h⟩ := exists_run .function s
        exact ⟨_, _, _, .operand_function hk h⟩
      | _ => simp [hk, Kind.startsExpression] at hs
    · exact ⟨_, _, _, .operand_missing (by simpa using hs)⟩
  | .operators p left, s => by
    by_cases hp : p < (upcoming s).kind.precedence
    · have := size_advance_lt_of_upcoming s (Kind.ne_eof_of_lt_precedence hp)
      have := size_advance_le (advance s)
      obtain ⟨next, ds, t, h⟩ := exists_run (.binary left) (advance s)
      have := h.size_le
      obtain ⟨e, es, u, h'⟩ := exists_run (.operators p next) t
      exact ⟨_, _, _, .operators_step hp h h'⟩
    · exact ⟨_, _, _, .operators_stop hp⟩
  | .binary left, s => by
    obtain ⟨r, ds, t, h⟩ := exists_run (.expression (current s).kind.precedence) (advance s)
    exact ⟨_, _, _, .binary h⟩
  | .unary, s => by
    obtain ⟨r, ds, t, h⟩ := exists_run (.expression .unary) (advance s)
    exact ⟨_, _, _, .unary h⟩
  | .grouped, s => by
    obtain ⟨v, ds, t, h⟩ := exists_run (.expression .lowest) (advance s)
    by_cases hk : (upcoming t).kind = .rparen
    · exact ⟨_, _, _, .grouped h hk⟩
    · exact ⟨_, _, _, .grouped_open h hk⟩
  | .conditional, s => by
    by_cases h₁ : (upcoming s).kind = .lparen
    · have := size_advance_le (advance s)
      obtain ⟨c, ds, t, h⟩ := exists_run (.expression .lowest) (advance (advance s))
      by_cases h₂ : (upcoming t).kind = .rparen
      · have := h.size_le
        have := size_advance_le t
        have := size_advance_le (advance t)
        obtain ⟨v, es, u, h'⟩ := exists_run (.branches (current s) c) (advance t)
        exact ⟨_, _, _, .conditional h₁ h h₂ h'⟩
      · exact ⟨_, _, _, .conditional_open h₁ h h₂⟩
    · exact ⟨_, _, _, .conditional_bare h₁⟩
  | .branches k c, s => by
    obtain ⟨v, ds, t, h⟩ := exists_run .braced s
    cases v with
    | none => exact ⟨_, _, _, .branches_missing h⟩
    | some b =>
      have := advance_size_le h.size_le
      obtain ⟨a, es, u, h'⟩ := exists_run .alternative t
      exact ⟨_, _, _, .branches h h'⟩
  | .alternative, s => by
    by_cases hk : (upcoming s).kind = .elseWord
    · have := size_advance_le (advance s)
      obtain ⟨b, ds, t, h⟩ := exists_run .braced (advance s)
      exact ⟨_, _, _, .alternative hk h⟩
    · exact ⟨_, _, _, .alternative_absent hk⟩
  | .function, s => by
    by_cases hk : (upcoming s).kind = .lparen
    · have := size_advance_le s
      have := size_advance_le (advance s)
      obtain ⟨v, ds, t, h⟩ := exists_run .parameters (advance s)
      cases v with
      | none => exact ⟨_, _, _, .function_open hk h⟩
      | some ps =>
        have := advance_size_le h.size_le
        obtain ⟨b, es, u, h'⟩ := exists_run .braced t
        exact ⟨_, _, _, .function hk h h'⟩
    · exact ⟨_, _, _, .function_bare hk⟩
  | .braced, s => by
    by_cases hk : (upcoming s).kind = .lbrace
    · have := size_advance_le (advance s)
      obtain ⟨b, ds, t, h⟩ := exists_run .block (advance s)
      exact ⟨_, _, _, .braced hk h⟩
    · exact ⟨_, _, _, .braced_missing hk⟩
  | .block, s => by
    obtain ⟨ss, ds, t, h⟩ := exists_run (.statements .rbrace) (advance s)
    exact ⟨_, _, _, .block h⟩
  | .statements k, s => by
    by_cases hk : (current s).kind = k ∨ (current s).kind = .eof
    · exact ⟨_, _, _, .statements_stop hk⟩
    · obtain ⟨x, ds, t, h⟩ := exists_run .statement s
      have := size_advance_lt s (fun h => hk (Or.inr h))
      have := advance_size_le h.size_le
      obtain ⟨xs, es, u, h'⟩ := exists_run (.statements k) (advance t)
      exact ⟨_, _, _, .statements_step hk h h'⟩
  | .statement, s => by
    by_cases h₁ : (current s).kind = .letWord
    · have := size_advance_lt s (by simp [h₁])
      obtain ⟨x, ds, t, h⟩ := exists_run .letting s
      exact ⟨_, _, _, .statement_letting h₁ h⟩
    · by_cases h₂ : (current s).kind = .returnWord
      · have := size_advance_lt s (by simp [h₂])
        obtain ⟨x, ds, t, h⟩ := exists_run .returning s
        exact ⟨_, _, _, .statement_returning h₂ h⟩
      · obtain ⟨x, ds, t, h⟩ := exists_run .expressionStatement s
        exact ⟨_, _, _, .statement_expression h₁ h₂ h⟩
  | .letting, s => by
    by_cases h₁ : (upcoming s).kind = .ident
    · by_cases h₂ : (upcoming (advance s)).kind = .assign
      · have := size_advance_le (advance s)
        have := size_advance_le (advance (advance s))
        obtain ⟨v, ds, t, h⟩ := exists_run .value (advance (advance (advance s)))
        exact ⟨_, _, _, .letting h₁ h₂ h⟩
      · exact ⟨_, _, _, .letting_open h₁ h₂⟩
    · exact ⟨_, _, _, .letting_bare h₁⟩
  | .returning, s => by
    obtain ⟨v, ds, t, h⟩ := exists_run .value (advance s)
    exact ⟨_, _, _, .returning h⟩
  | .expressionStatement, s => by
    obtain ⟨v, ds, t, h⟩ := exists_run (.expression .lowest) s
    by_cases hk : (upcoming t).kind = .semicolon
    · exact ⟨_, _, _, .expressionStatement_closed h hk⟩
    · exact ⟨_, _, _, .expressionStatement h hk⟩
  | .value, s => by
    obtain ⟨v, ds, t, h⟩ := exists_run (.expression .lowest) s
    have := h.size_le
    obtain ⟨w, es, u, h'⟩ := exists_run (.lastValue v) t
    exact ⟨_, _, _, .value h h'⟩
  | .lastValue v, s => by
    by_cases h₁ : (current s).kind = .semicolon ∨ (current s).kind = .eof
    · exact ⟨_, _, _, .lastValue_stop h₁⟩
    · by_cases h₂ : (upcoming s).kind = .semicolon ∨ (upcoming s).kind = .eof
      · exact ⟨_, _, _, .lastValue_closed h₁ h₂⟩
      · have := size_advance_lt s (fun h => h₁ (Or.inr h))
        obtain ⟨next, ds, t, h⟩ := exists_run (.expression .lowest) (advance s)
        have := h.size_le
        obtain ⟨w, es, u, h'⟩ := exists_run (.lastValue next) t
        exact ⟨_, _, _, .lastValue_step h₁ h₂ h h'⟩
  | .parameters, s => by
    by_cases h₁ : (upcoming s).kind = .rparen
    · exact ⟨_, _, _, .parameters_none h₁⟩
    · by_cases h₂ : (upcoming s).kind = .ident
      · have := size_advance_le s
        obtain ⟨ps, ds, t, h⟩ := exists_run .moreParameters (advance s)
        exact ⟨_, _, _, .parameters h₂ h⟩
      · exact ⟨_, _, _, .parameters_bare h₁ h₂⟩
  | .moreParameters, s => by
    by_cases h₁ : (upcoming s).kind = .comma
    · by_cases h₂ : (upcoming (advance s)).kind = .ident
      · have := size_advance_lt_of_upcoming s (by simp [h₁])
        have := size_advance_le (advance s)
        obtain ⟨ps, ds, t, h⟩ := exists_run .moreParameters (advance (advance s))
        exact ⟨_, _, _, .moreParameters h₁ h₂ h⟩
      · exact ⟨_, _, _, .moreParameters_bare h₁ h₂⟩
    · by_cases h₂ : (upcoming s).kind = .rparen
      · exact ⟨_, _, _, .moreParameters_end h₂⟩
      · exact ⟨_, _, _, .moreParameters_open h₁ h₂⟩
termination_by c s => c.measure s
decreasing_by
  all_goals
    simp only [Construct.measure]
    omega

/-- The run of a call. -/
theorem run_read (c : Construct) (s : σ) :
    Run c s (c.read s).value (c.read s).found (c.read s).stream := by
  obtain ⟨v, ds, t, h⟩ := exists_run c s
  obtain ⟨_, heq⟩ := h.gives
  rw [heq]
  exact h

/-- **A run is a call.**  What the rules allow is what reading gives, and nothing else. -/
theorem run_iff {c : Construct} {s t : σ} {v : c.Value} {ds : List Diagnostic} :
    Run c s v ds t ↔ Gives (c.read s) v ds t := by
  refine ⟨Run.gives, ?_⟩
  rintro ⟨hle, heq⟩
  have h := run_read c s
  rwa [heq] at h

/-- Two runs from one supply are the same. -/
theorem Run.unique {c : Construct} {s t u : σ} {v w : c.Value} {ds es : List Diagnostic}
    (h : Run c s v ds t) (h' : Run c s w es u) : v = w ∧ ds = es ∧ t = u := by
  obtain ⟨_, heq⟩ := h.gives
  obtain ⟨_, heq'⟩ := h'.gives
  rw [heq, Outcome.mk.injEq] at heq'
  exact heq'

end Parser

/-- A reader answers with what an outcome is made of and goes on behind it. -/
theorem Reader.accept_of_gives {σ : Type} [TokenSupply σ] {α : Type} {r : Reader σ}
    {o : Outcome α r.stream} {v : α} {ds : List Diagnostic} {t : σ} (h : Parser.Gives o v ds t)
    (reply : α → Reply) : r.accept o reply = (reply v, ⟨t, r.diagnostics ++ ds⟩) := by
  obtain ⟨_, rfl⟩ := h
  rfl

end MonkeyFrontend
