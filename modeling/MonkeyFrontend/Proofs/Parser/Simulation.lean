import MonkeyFrontend.Proofs.Parser.Call
import MonkeyFrontend.Proofs.Parser.Forward
import MonkeyFrontend.Proofs.Tree.MapToken

/-! # Runs on corresponding supplies

A supply corresponds to another one when it stands on the same kinds and texts and moves in
step with it.  What is read from the one is read from the other, with the corresponding
tokens in the tree and the same diagnostics (`Run.map`).  As a run sees no further than the
token behind the one on which it ends, it is enough that the supplies correspond so far
(`Run.map_while`).
-/
namespace MonkeyFrontend

open TokenSupply

/-- **A correspondence of supplies.**  The supply `f s` stands on the token `g t` where `s`
stands on `t`, and moves on to where `s` moves on. -/
structure Corresponds {σ τ : Type} [TokenSupply σ] [TokenSupply τ] (f : σ → τ)
    (g : Token → Token) : Prop where
  current (s : σ) : current (f s) = g (current s)
  advance (s : σ) : advance (f s) = f (advance s)
  kind (t : Token) : (g t).kind = t.kind
  literal (t : Token) : (g t).literal = t.literal

/-- **A correspondence as far as `P` holds**, at the places before those where it holds. -/
structure CorrespondsWhile {σ τ : Type} [TokenSupply σ] [TokenSupply τ] (P : σ → Prop)
    (f : σ → τ) (g : Token → Token) : Prop where
  back (s : σ) : P (advance s) → P s
  current (s : σ) : P s → current (f s) = g (current s)
  upcoming (s : σ) : P s → upcoming (f s) = g (upcoming s)
  advance (s : σ) : P s → advance (f s) = f (advance s)
  kind (t : Token) : (g t).kind = t.kind
  literal (t : Token) : (g t).literal = t.literal

namespace Corresponds

variable {σ τ : Type} [TokenSupply σ] [TokenSupply τ] {f : σ → τ} {g : Token → Token}

theorem upcoming (h : Corresponds f g) (s : σ) :
    TokenSupply.upcoming (f s) = g (TokenSupply.upcoming s) := by
  rw [upcoming_eq, upcoming_eq, h.advance, h.current]

theorem upcoming_kind (h : Corresponds f g) (s : σ) :
    (TokenSupply.upcoming (f s)).kind = (TokenSupply.upcoming s).kind := by
  rw [h.upcoming, h.kind]

/-- A correspondence of all places. -/
theorem always (h : Corresponds f g) : CorrespondsWhile (fun _ => True) f g where
  back _ _ := trivial
  current s _ := h.current s
  upcoming s _ := h.upcoming s
  advance s _ := h.advance s
  kind := h.kind
  literal := h.literal

end Corresponds

namespace CorrespondsWhile

variable {σ τ : Type} [TokenSupply σ] [TokenSupply τ] {P : σ → Prop} {f : σ → τ}
  {g : Token → Token} {s t : σ}

theorem of_ahead (h : CorrespondsWhile P f g) (hst : Ahead s t) : P t → P s :=
  hst.preserves (P := fun u => P u → P s) (fun u hu hnext => hu (h.back u hnext)) id

theorem current_kind (h : CorrespondsWhile P f g) (hs : P s) :
    (TokenSupply.current (f s)).kind = (TokenSupply.current s).kind := by
  rw [h.current s hs, h.kind]

theorem upcoming_kind (h : CorrespondsWhile P f g) (hs : P s) :
    (TokenSupply.upcoming (f s)).kind = (TokenSupply.upcoming s).kind := by
  rw [h.upcoming s hs, h.kind]

theorem ofToken (h : CorrespondsWhile P f g) (t : Token) :
    Identifier.ofToken (g t) = (Identifier.ofToken t).mapToken g := by
  rw [Identifier.ofToken, h.literal]
  rfl

end CorrespondsWhile

namespace Parser

namespace Construct

/-- A construct with other tokens in what is known when reading begins. -/
def mapToken (g : Token → Token) : Construct → Construct
  | operators p left => operators p (left.mapToken g)
  | binary left => binary (left.mapToken g)
  | branches keyword condition => branches (g keyword) (Expr.optionMapToken g condition)
  | lastValue v => lastValue (Expr.optionMapToken g v)
  | c => c

/-- What reading a construct gives, with other tokens. -/
def mapValue (g : Token → Token) : (c : Construct) → c.Value → (c.mapToken g).Value
  | expression _ | operand | grouped | conditional | branches _ _ | function | value
  | lastValue _ => Expr.optionMapToken g
  | operators _ _ | binary _ | unary => Expr.mapToken g
  | alternative => Option.map (Block.optionMapToken g)
  | braced => Block.optionMapToken g
  | block => Block.mapToken g
  | statements _ => Stmt.listMapToken g
  | statement | letting | returning | expressionStatement => Stmt.mapToken g
  | parameters | moreParameters => Option.map (List.map (Identifier.mapToken g))

end Construct

variable {σ τ : Type} [TokenSupply σ] [TokenSupply τ] {P : σ → Prop} {f : σ → τ}
  {g : Token → Token}

/-- What is read from the next token on is read from the next token of the corresponding
supply. -/
theorem run_next (hfg : CorrespondsWhile P f g) {c c' : Construct} {s t : σ} {u : τ}
    {v : c.Value} {v' : c'.Value} {ds es : List Diagnostic} (h : Run c (advance s) v ds t)
    (ht : P t) (hrun : Run c' (f (advance s)) v' es u) :
    P s ∧ Run c' (advance (f s)) v' es u := by
  have hs : P s := hfg.of_ahead h.ahead.of_advance ht
  rw [hfg.advance s hs]
  exact ⟨hs, hrun⟩

/-- **A run is determined by what it sees**: supplies that correspond up to where a run ends have
corresponding runs. -/
theorem Run.map_while (hfg : CorrespondsWhile P f g) {c : Construct} {s t : σ} {v : c.Value}
    {ds : List Diagnostic} (h : Run c s v ds t) (ht : P t) :
    Run (c.mapToken g) (f s) (c.mapValue g v) ds (f t) := by
  induction h with
  | expression_missing _ ih => exact .expression_missing (ih ht)
  | expression _ h₂ ih₁ ih₂ => exact .expression (ih₁ (hfg.of_ahead h₂.ahead ht)) (ih₂ ht)
  | identifier h =>
    have hrun := Run.identifier (s := f _) ((hfg.current_kind ht).trans h)
    rw [hfg.current _ ht, hfg.ofToken] at hrun
    exact hrun
  | integer h hn =>
    have hrun := Run.integer (s := f _) ((hfg.current_kind ht).trans h)
      (by rw [hfg.current _ ht, hfg.literal]; exact hn)
    rw [hfg.current _ ht] at hrun
    exact hrun
  | integer_bad h hn =>
    have hrun := Run.integer_bad (s := f _) ((hfg.current_kind ht).trans h)
      (by rw [hfg.current _ ht, hfg.literal]; exact hn)
    rw [hfg.current _ ht, hfg.literal] at hrun
    exact hrun
  | boolean h =>
    have hrun := Run.boolean (s := f _) (by rwa [hfg.current_kind ht])
    rw [hfg.current_kind ht, hfg.current _ ht] at hrun
    exact hrun
  | operand_unary h h₁ ih =>
    exact .operand_unary (by rwa [hfg.current_kind (hfg.of_ahead h₁.ahead ht)]) (ih ht)
  | operand_grouped h h₁ ih =>
    exact .operand_grouped (by rwa [hfg.current_kind (hfg.of_ahead h₁.ahead ht)]) (ih ht)
  | operand_conditional h h₁ ih =>
    exact .operand_conditional (by rwa [hfg.current_kind (hfg.of_ahead h₁.ahead ht)]) (ih ht)
  | operand_function h h₁ ih =>
    exact .operand_function (by rwa [hfg.current_kind (hfg.of_ahead h₁.ahead ht)]) (ih ht)
  | operand_missing h =>
    have hrun := Run.operand_missing (s := f _) (by rwa [hfg.current_kind ht])
    rw [hfg.current_kind ht] at hrun
    exact hrun
  | operators_stop h => exact .operators_stop (by rwa [hfg.upcoming_kind ht])
  | operators_step h h₁ h₂ ih₁ ih₂ =>
    have hm := hfg.of_ahead h₂.ahead ht
    obtain ⟨hs, hfirst⟩ := run_next hfg h₁ hm (ih₁ hm)
    exact .operators_step (by rwa [hfg.upcoming_kind hs]) hfirst (ih₂ ht)
  | @binary _ _ _ left _ h ih =>
    obtain ⟨hs, hpart⟩ := run_next hfg h ht (ih ht)
    have hrun := @Run.binary _ _ (f _) _ _ (left.mapToken g) _
      (by rw [hfg.current_kind hs]; exact hpart)
    rw [hfg.current _ hs, hfg.literal] at hrun
    exact hrun
  | unary h ih =>
    obtain ⟨hs, hpart⟩ := run_next hfg h ht (ih ht)
    have hrun := Run.unary (s := f _) hpart
    rw [hfg.current _ hs, hfg.literal] at hrun
    exact hrun
  | grouped h h₁ ih =>
    have hm := hfg.back _ ht
    obtain ⟨hs, hpart⟩ := run_next hfg h hm (ih hm)
    rw [← hfg.advance _ hm]
    exact .grouped hpart (by rwa [hfg.upcoming_kind hm])
  | grouped_open h h₁ ih =>
    obtain ⟨hs, hpart⟩ := run_next hfg h ht (ih ht)
    have hrun := Run.grouped_open hpart (by rwa [hfg.upcoming_kind ht])
    rw [hfg.upcoming_kind ht] at hrun
    exact hrun
  | conditional_bare h =>
    have hrun := Run.conditional_bare (s := f _) (by rwa [hfg.upcoming_kind ht])
    rw [hfg.upcoming_kind ht] at hrun
    exact hrun
  | conditional_open h₁ h h₂ ih =>
    obtain ⟨hnext, hpart⟩ := run_next hfg h ht (ih ht)
    have hs := hfg.back _ hnext
    rw [← hfg.advance _ hs] at hpart
    have hrun := Run.conditional_open (by rwa [hfg.upcoming_kind hs]) hpart
      (by rwa [hfg.upcoming_kind ht])
    rw [hfg.upcoming_kind ht] at hrun
    exact hrun
  | conditional h₁ h h₂ h' ih₁ ih₂ =>
    obtain ⟨hm, hsecond⟩ := run_next hfg h' ht (ih₂ ht)
    obtain ⟨hnext, hfirst⟩ := run_next hfg h hm (ih₁ hm)
    have hs := hfg.back _ hnext
    rw [← hfg.advance _ hs] at hfirst
    exact .conditional (by rwa [hfg.upcoming_kind hs]) hfirst (by rwa [hfg.upcoming_kind hm])
      (by rw [hfg.current _ hs]; exact hsecond)
  | branches_missing _ ih => exact .branches_missing (ih ht)
  | @branches k _ _ _ _ _ c _ a _ h₂ ih₁ ih₂ =>
    have hrun := @Run.branches _ _ (g k) _ _ _ _ _ (Expr.optionMapToken g c) _ _
      (ih₁ (hfg.of_ahead h₂.ahead ht)) (ih₂ ht)
    cases a <;> exact hrun
  | @alternative _ _ _ b h h₁ ih =>
    obtain ⟨hs, hpart⟩ := run_next hfg h₁ ht (ih ht)
    have hrun := Run.alternative (by rwa [hfg.upcoming_kind hs]) hpart
    cases b <;> exact hrun
  | alternative_absent h => exact .alternative_absent (by rwa [hfg.upcoming_kind ht])
  | function_bare h =>
    have hrun := Run.function_bare (s := f _) (by rwa [hfg.upcoming_kind ht])
    rw [hfg.upcoming_kind ht] at hrun
    exact hrun
  | function_open h h₁ ih =>
    obtain ⟨hs, hpart⟩ := run_next hfg h₁ ht (ih ht)
    exact .function_open (by rwa [hfg.upcoming_kind hs]) hpart
  | @function _ _ _ _ _ _ b h h₁ h₂ ih₁ ih₂ =>
    have hm := hfg.of_ahead h₂.ahead ht
    obtain ⟨hs, hfirst⟩ := run_next hfg h₁ hm (ih₁ hm)
    have hrun := Run.function (by rwa [hfg.upcoming_kind hs]) hfirst (ih₂ ht)
    rw [hfg.current _ hs] at hrun
    cases b <;> exact hrun
  | braced h h₁ ih =>
    obtain ⟨hs, hpart⟩ := run_next hfg h₁ ht (ih ht)
    exact .braced (by rwa [hfg.upcoming_kind hs]) hpart
  | braced_missing h =>
    have hrun := Run.braced_missing (s := f _) (by rwa [hfg.upcoming_kind ht])
    rw [hfg.upcoming_kind ht] at hrun
    exact hrun
  | block h ih =>
    obtain ⟨hs, hpart⟩ := run_next hfg h ht (ih ht)
    have hrun := Run.block hpart
    rw [hfg.current _ hs] at hrun
    exact hrun
  | statements_stop h => exact .statements_stop (by rwa [hfg.current_kind ht])
  | statements_step h h₁ h₂ ih₁ ih₂ =>
    obtain ⟨hm, hsecond⟩ := run_next hfg h₂ ht (ih₂ ht)
    have hs := hfg.of_ahead h₁.ahead hm
    exact .statements_step (by rwa [hfg.current_kind hs]) (ih₁ hm) hsecond
  | statement_letting h h₁ ih =>
    exact .statement_letting (by rwa [hfg.current_kind (hfg.of_ahead h₁.ahead ht)]) (ih ht)
  | statement_returning h h₁ ih =>
    exact .statement_returning (by rwa [hfg.current_kind (hfg.of_ahead h₁.ahead ht)]) (ih ht)
  | statement_expression h₁ h₂ h ih =>
    have hs := hfg.of_ahead h.ahead ht
    exact .statement_expression (by rwa [hfg.current_kind hs]) (by rwa [hfg.current_kind hs])
      (ih ht)
  | letting_bare h =>
    have hrun := Run.letting_bare (s := f _) (by rwa [hfg.upcoming_kind ht])
    rw [hfg.upcoming_kind ht, hfg.current _ ht] at hrun
    exact hrun
  | letting_open h₁ h₂ =>
    have hs := hfg.back _ ht
    rw [← hfg.upcoming_kind ht, ← hfg.advance _ hs] at h₂
    have hrun := Run.letting_open (s := f _) (by rwa [hfg.upcoming_kind hs]) h₂
    rw [hfg.advance _ hs, hfg.upcoming_kind ht, hfg.upcoming _ hs, hfg.current _ hs,
      hfg.ofToken] at hrun
    exact hrun
  | letting h₁ h₂ h ih =>
    obtain ⟨hthird, hpart⟩ := run_next hfg h ht (ih ht)
    have hnext := hfg.back _ hthird
    have hs := hfg.back _ hnext
    rw [← hfg.upcoming_kind hnext, ← hfg.advance _ hs] at h₂
    rw [← hfg.advance _ hnext, ← hfg.advance _ hs] at hpart
    have hrun := Run.letting (s := f _) (by rwa [hfg.upcoming_kind hs]) h₂ hpart
    rw [hfg.upcoming _ hs, hfg.current _ hs, hfg.ofToken] at hrun
    exact hrun
  | returning h ih =>
    obtain ⟨hs, hpart⟩ := run_next hfg h ht (ih ht)
    have hrun := Run.returning hpart
    rw [hfg.current _ hs] at hrun
    exact hrun
  | expressionStatement_closed h₁ h ih =>
    have hm := hfg.back _ ht
    rw [← hfg.advance _ hm]
    have hrun := Run.expressionStatement_closed (ih hm) (by rwa [hfg.upcoming_kind hm])
    rw [hfg.current _ (hfg.of_ahead h₁.ahead hm)] at hrun
    exact hrun
  | expressionStatement h₁ h ih =>
    have hrun := Run.expressionStatement (ih ht) (by rwa [hfg.upcoming_kind ht])
    rw [hfg.current _ (hfg.of_ahead h₁.ahead ht)] at hrun
    exact hrun
  | value _ h₂ ih₁ ih₂ => exact .value (ih₁ (hfg.of_ahead h₂.ahead ht)) (ih₂ ht)
  | lastValue_stop h => exact .lastValue_stop (by rwa [hfg.current_kind ht])
  | lastValue_closed h₁ h₂ =>
    have hs := hfg.back _ ht
    rw [← hfg.advance _ hs]
    exact .lastValue_closed (by rwa [hfg.current_kind hs]) (by rwa [hfg.upcoming_kind hs])
  | lastValue_step h₁ h₂ h h' ih₁ ih₂ =>
    have hm := hfg.of_ahead h'.ahead ht
    obtain ⟨hs, hfirst⟩ := run_next hfg h hm (ih₁ hm)
    exact .lastValue_step (by rwa [hfg.current_kind hs]) (by rwa [hfg.upcoming_kind hs]) hfirst
      (ih₂ ht)
  | parameters_none h =>
    have hs := hfg.back _ ht
    rw [← hfg.advance _ hs]
    exact .parameters_none (by rwa [hfg.upcoming_kind hs])
  | parameters_bare h₁ h₂ =>
    have hrun := Run.parameters_bare (s := f _) (by rwa [hfg.upcoming_kind ht])
      (by rwa [hfg.upcoming_kind ht])
    rw [hfg.upcoming_kind ht] at hrun
    exact hrun
  | @parameters _ _ _ ps h h₁ ih =>
    obtain ⟨hs, hpart⟩ := run_next hfg h₁ ht (ih ht)
    have hrun := Run.parameters (s := f _) (by rwa [hfg.upcoming_kind hs]) hpart
    rw [hfg.upcoming _ hs, hfg.ofToken] at hrun
    cases ps <;> exact hrun
  | moreParameters_bare h₁ h₂ =>
    have hs := hfg.back _ ht
    rw [← hfg.upcoming_kind ht, ← hfg.advance _ hs] at h₂
    have hrun := Run.moreParameters_bare (s := f _) (by rwa [hfg.upcoming_kind hs]) h₂
    rw [hfg.advance _ hs, hfg.upcoming_kind ht] at hrun
    exact hrun
  | @moreParameters _ _ _ ps h₁ h₂ h ih =>
    obtain ⟨hnext, hpart⟩ := run_next hfg h ht (ih ht)
    have hs := hfg.back _ hnext
    rw [← hfg.upcoming_kind hnext, ← hfg.advance _ hs] at h₂
    rw [← hfg.advance _ hs] at hpart
    have hrun := Run.moreParameters (s := f _) (by rwa [hfg.upcoming_kind hs]) h₂ hpart
    rw [hfg.advance _ hs, hfg.upcoming _ hnext, hfg.ofToken] at hrun
    cases ps <;> exact hrun
  | moreParameters_end h =>
    have hs := hfg.back _ ht
    rw [← hfg.advance _ hs]
    exact .moreParameters_end (by rwa [hfg.upcoming_kind hs])
  | moreParameters_open h₁ h₂ =>
    have hrun := Run.moreParameters_open (s := f _) (by rwa [hfg.upcoming_kind ht])
      (by rwa [hfg.upcoming_kind ht])
    rw [hfg.upcoming_kind ht] at hrun
    exact hrun

/-- **Corresponding supplies have corresponding runs.** -/
theorem Run.map (hfg : Corresponds f g) {c : Construct} {s t : σ} {v : c.Value}
    {ds : List Diagnostic} (h : Run c s v ds t) :
    Run (c.mapToken g) (f s) (c.mapValue g v) ds (f t) := h.map_while hfg.always trivial

/-! ## The same tokens from another supply -/

/-- A run on a supply that stands on the same tokens, as far as the run sees, is the same run. -/
theorem Run.map_id_while (hf : CorrespondsWhile P f id) {c : Construct} {s t : σ} {v : c.Value}
    {ds : List Diagnostic} (h : Run c s v ds t) (ht : P t) : Run c (f s) v ds (f t) := by
  have hrun := h.map_while hf ht
  cases c with
  | operators p left =>
    change Run (.operators p (left.mapToken id)) (f s) (Expr.mapToken id v) ds (f t) at hrun
    rwa [Expr.mapToken_id, Expr.mapToken_id] at hrun
  | binary left =>
    change Run (.binary (left.mapToken id)) (f s) (Expr.mapToken id v) ds (f t) at hrun
    rwa [Expr.mapToken_id, Expr.mapToken_id] at hrun
  | branches k condition =>
    change Run (.branches k (Expr.optionMapToken id condition)) (f s) (Expr.optionMapToken id v)
      ds (f t) at hrun
    rwa [Expr.optionMapToken_id, Expr.optionMapToken_id] at hrun
  | lastValue w =>
    change Run (.lastValue (Expr.optionMapToken id w)) (f s) (Expr.optionMapToken id v) ds (f t)
      at hrun
    rwa [Expr.optionMapToken_id, Expr.optionMapToken_id] at hrun
  | expression | operand | grouped | conditional | function | value =>
    exact Expr.optionMapToken_id v ▸ hrun
  | unary => exact Expr.mapToken_id v ▸ hrun
  | alternative =>
    have hv : Option.map (Block.optionMapToken id) v = v := by
      cases v with
      | none => rfl
      | some b => rw [Option.map_some, Block.optionMapToken_id]
    exact hv ▸ hrun
  | braced => exact Block.optionMapToken_id v ▸ hrun
  | block => exact Block.mapToken_id v ▸ hrun
  | statements => exact Stmt.listMapToken_id v ▸ hrun
  | statement | letting | returning | expressionStatement => exact Stmt.mapToken_id v ▸ hrun
  | parameters | moreParameters =>
    have hv : Option.map (List.map (Identifier.mapToken id)) v = v := by
      cases v with
      | none => rfl
      | some ps => exact congrArg some (List.map_id ps)
    exact hv ▸ hrun

/-- A run on a supply that stands on the same tokens is the same run. -/
theorem Run.map_id (hf : Corresponds f id) {c : Construct} {s t : σ} {v : c.Value}
    {ds : List Diagnostic} (h : Run c s v ds t) : Run c (f s) v ds (f t) :=
  h.map_id_while hf.always trivial

end Parser
end MonkeyFrontend
