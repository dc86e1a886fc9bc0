import MonkeyFrontend.Parser.Reader
import MonkeyFrontend.Proofs.Parser.Call
import MonkeyFrontend.Proofs.Tree.Nodes

/-! # Every hole is paid for by a diagnostic

A node is incomplete when one of its slots is empty.  A slot is empty only because something
could not be read, and whatever cannot be read is reported: the incomplete nodes of a result,
and one more for a result that is missing altogether, are at most as many as the diagnostics
of the call (`Run.cost_le`, `Reader.holes_perform`).

The induction is on runs.  What a call is handed (the left operand of an operator, the
condition of a conditional, the last value so far) comes with holes of its own, which the call
does not pay for; they are its `debt`.
-/
namespace MonkeyFrontend

open TokenSupply

/-! ## The holes of a node by those of its parts -/

/-- The holes of an optional expression; a missing one is a hole itself. -/
def Expr.optionHoles : Option Expr → Nat
  | none => 1
  | some e => holes e.nodes

theorem Expr.holes_optionNodes (v : Option Expr) :
    holes (Expr.optionNodes v) + v.isNone.toNat = Expr.optionHoles v := by
  cases v <;> rfl

theorem Expr.holes_unary (t : Token) (o : String) (r : Option Expr) :
    holes (Expr.unary t o r).nodes = Expr.optionHoles r := by
  rw [Expr.nodes, holes_cons, ← Expr.holes_optionNodes]
  rfl

theorem Expr.holes_binary (t : Token) (l : Expr) (o : String) (r : Option Expr) :
    holes (Expr.binary t l o r).nodes = holes l.nodes + Expr.optionHoles r := by
  rw [Expr.nodes, holes_append, holes_cons, ← Expr.holes_optionNodes]
  rfl

/-- A conditional without an alternative is complete. -/
theorem Expr.holes_conditional (t : Token) (c : Option Expr) (b : Block) (a : Option Block) :
    holes (Expr.conditional t c b a).nodes =
      Expr.optionHoles c + (holes b.nodes + holes (Block.optionNodes a)) := by
  rw [Expr.nodes, holes_cons, holes_append, holes_append, ← Expr.holes_optionNodes]
  show _ + c.isNone.toNat = _
  omega

theorem Expr.holes_function (t : Token) (ps : List Identifier) (b : Block) :
    holes (Expr.function t ps b).nodes = holes b.nodes := by
  rw [Expr.nodes, holes_cons, holes_append, holes_identifiers]
  show 0 + _ + 0 = _
  omega

/-- A let statement without a name has no value either, and is one incomplete node. -/
theorem Stmt.holes_letting_bare (t : Token) : holes (Stmt.letting t none none).nodes = 1 := rfl

theorem Stmt.holes_letting (t : Token) (i : Identifier) (v : Option Expr) :
    holes (Stmt.letting t (some i) v).nodes = Expr.optionHoles v := by
  rw [Stmt.nodes, holes_cons, holes_append, holes_identifiers, ← Expr.holes_optionNodes]
  show 0 + _ + v.isNone.toNat = _
  omega

theorem Stmt.holes_returning (t : Token) (v : Option Expr) :
    holes (Stmt.returning t v).nodes = Expr.optionHoles v := by
  rw [Stmt.nodes, holes_cons, ← Expr.holes_optionNodes]
  rfl

theorem Stmt.holes_expression (t : Token) (v : Option Expr) :
    holes (Stmt.expression t v).nodes = Expr.optionHoles v := by
  rw [Stmt.nodes, holes_cons, ← Expr.holes_optionNodes]
  rfl

theorem Block.holes_mk (t : Token) (ss : List Stmt) :
    holes (Block.mk t ss).nodes = holes (Stmt.listNodes ss) := by
  rw [Block.nodes, holes_cons]
  rfl

theorem Stmt.holes_cons (s : Stmt) (ss : List Stmt) :
    holes (Stmt.listNodes (s :: ss)) = holes s.nodes + holes (Stmt.listNodes ss) := by
  rw [Stmt.listNodes, holes_append]

/-! ## What a call pays for -/

namespace Parser

namespace Construct

/-- The holes in what reading a construct gives; a missing result is a hole itself. -/
def cost : (c : Construct) → c.Value → Nat
  | expression _ | operand | grouped | conditional | branches _ _ | function | value
  | lastValue _ => Expr.optionHoles
  | operators _ _ | binary _ | unary => fun e => holes e.nodes
  | alternative => fun a => a.elim 1 fun b => holes (Block.optionNodes b)
  | braced => fun b => b.elim 1 fun b => holes b.nodes
  | block => fun b => holes b.nodes
  | statements _ => fun ss => holes (Stmt.listNodes ss)
  | statement | letting | returning | expressionStatement => fun x => holes x.nodes
  | parameters | moreParameters => fun ps => ps.elim 1 fun _ => 0

/-- The holes in what is known when reading begins. -/
def debt : Construct → Nat
  | operators _ left | binary left => holes left.nodes
  | branches _ v | lastValue v => Expr.optionHoles v
  | _ => 0

end Construct

variable {σ : Type} [TokenSupply σ]

/-- What the diagnostics of a first part pay for is a debt that those of a second part take
over. -/
theorem le_append {m n k : Nat} {ds es : List Diagnostic} (h : m ≤ k + ds.length)
    (h' : n ≤ m + es.length) : n ≤ k + (ds ++ es).length := by
  rw [List.length_append]
  omega

/-- **Every hole is paid for by a diagnostic of its own.** -/
theorem Run.cost_le {c : Construct} {s t : σ} {v : c.Value} {ds : List Diagnostic}
    (h : Run c s v ds t) : c.cost v ≤ c.debt + ds.length := by
  induction h with
  -- One report for one missing result.
  | integer_bad | operand_missing | conditional_bare | function_bare | braced_missing
  | parameters_bare | moreParameters_bare | moreParameters_open => exact Nat.le_refl 1
  | letting_bare =>
    show holes _ ≤ _
    rw [Stmt.holes_letting_bare]
    exact Nat.le_refl 1
  | letting_open =>
    show holes _ ≤ _
    rw [Stmt.holes_letting]
    exact Nat.le_refl 1
  | grouped_open | conditional_open =>
    show 1 ≤ _
    rw [List.length_append, List.length_singleton]
    omega
  -- Nothing is missing.
  | identifier | integer | boolean | statements_stop | alternative_absent | parameters_none
  | moreParameters_end => exact Nat.zero_le _
  | operators_stop | lastValue_stop | lastValue_closed => exact Nat.le_refl _
  -- The result is that of one part.
  | expression_missing _ ih | operand_unary _ _ ih | operand_grouped _ _ ih
  | operand_conditional _ _ ih | operand_function _ _ ih | grouped _ _ ih | function_open _ _ ih
  | braced _ _ ih | statement_letting _ _ ih | statement_returning _ _ ih
  | statement_expression _ _ _ ih => exact ih
  | branches_missing _ ih => exact Nat.le_trans ih (Nat.add_le_add_right (Nat.zero_le _) _)
  | @alternative s ds t b _ _ ih | @parameters s ds t b _ _ ih | @moreParameters s ds t b _ _ _ ih =>
    cases b <;> exact ih
  -- The result is a node with an optional part.
  | @binary s ds t left r _ ih =>
    show holes _ ≤ holes left.nodes + _
    rw [Expr.holes_binary]
    have hright : Expr.optionHoles r ≤ 0 + ds.length := ih
    omega
  | unary _ ih =>
    show holes _ ≤ _
    rw [Expr.holes_unary]
    exact ih
  | block _ ih =>
    show holes _ ≤ _
    rw [Block.holes_mk]
    exact ih
  | letting _ _ _ ih =>
    show holes _ ≤ _
    rw [Stmt.holes_letting]
    exact ih
  | returning _ ih =>
    show holes _ ≤ _
    rw [Stmt.holes_returning]
    exact ih
  | expressionStatement_closed _ _ ih | expressionStatement _ _ ih =>
    show holes _ ≤ _
    rw [Stmt.holes_expression]
    exact ih
  -- What the first part gave is a debt of the second.
  | expression _ _ ih₁ ih₂ | operators_step _ _ _ ih₁ ih₂ | value _ _ ih₁ ih₂
  | conditional _ _ _ _ ih₁ ih₂ => exact le_append ih₁ ih₂
  | lastValue_step _ _ _ _ ih₁ ih₂ =>
    -- the value so far is dropped, with its holes
    exact Nat.le_trans (le_append ih₁ ih₂) (Nat.add_le_add_right (Nat.zero_le _) _)
  -- Both parts are in the result.
  | @branches k s ds t es u c b a _ _ ih₁ ih₂ =>
    have hb : holes b.nodes ≤ 0 + ds.length := ih₁
    rw [List.length_append]
    cases a with
    | none =>
      have ha : 1 ≤ 0 + es.length := ih₂
      show 1 ≤ _
      omega
    | some a =>
      have ha : holes (Block.optionNodes a) ≤ 0 + es.length := ih₂
      show holes _ ≤ Expr.optionHoles c + _
      rw [Expr.holes_conditional]
      omega
  | @function s ds t es u ps b _ _ _ ih₁ ih₂ =>
    rw [List.length_append]
    cases b with
    | none =>
      have hb : 1 ≤ 0 + es.length := ih₂
      show 1 ≤ _
      omega
    | some b =>
      have hb : holes b.nodes ≤ 0 + es.length := ih₂
      show holes _ ≤ 0 + _
      rw [Expr.holes_function]
      omega
  | @statements_step k s ds t es u x xs _ _ _ ih₁ ih₂ =>
    have hx : holes x.nodes ≤ 0 + ds.length := ih₁
    have hxs : holes (Stmt.listNodes xs) ≤ 0 + es.length := ih₂
    show holes _ ≤ 0 + _
    rw [Stmt.holes_cons, List.length_append]
    omega

end Parser

/-! ## Whatever a reader is asked -/

/-- The holes in an answer; a missing tree or list of names is a hole itself. -/
def Reply.holes : Reply → Nat
  | .tree node => node.elim 1 fun n => MonkeyFrontend.holes n.nodes
  | .names parameters => parameters.elim 1 fun _ => 0
  | _ => 0

/-- The holes in the left operand that a call is handed. -/
def Call.debt : Call → Nat
  | .binary left => holes left.nodes
  | _ => 0

namespace Reader

variable {σ : Type} [TokenSupply σ]

/-- The holes of an answer, but for those of a debt, are at most as many as the diagnostics
that came with it. -/
def Pays (r : Reader σ) (debt : Nat) (answer : Reply × Reader σ) : Prop :=
  ∃ new, answer.2.diagnostics = r.diagnostics ++ new ∧ answer.1.holes ≤ debt + new.length

theorem pays_accept {α : Type} {r : Reader σ} {o : Outcome α r.stream} {reply : α → Reply}
    {debt : Nat} (h : (reply o.value).holes ≤ debt + o.found.length) :
    r.Pays debt (r.accept o reply) := ⟨o.found, rfl, h⟩

theorem pays_acceptExpr {r : Reader σ} {o : Outcome (Option Expr) r.stream} {debt : Nat}
    (h : Expr.optionHoles o.value ≤ debt + o.found.length) : r.Pays debt (r.acceptExpr o) := by
  apply pays_accept
  cases hv : o.value <;> rw [hv] at h <;> exact h

theorem pays_acceptStmt {r : Reader σ} {o : Outcome Stmt r.stream}
    (h : holes o.value.nodes ≤ 0 + o.found.length) : r.Pays 0 (r.acceptStmt o) := pays_accept h

omit [TokenSupply σ] in
/-- An answer without a tree has no holes. -/
theorem pays_of_no_tree {r : Reader σ} {answer : Reply × Reader σ} {new : List Diagnostic}
    (h : answer.2.diagnostics = r.diagnostics ++ new) (hreply : answer.1.holes = 0) :
    r.Pays 0 answer := ⟨new, h, by rw [hreply]; exact Nat.zero_le _⟩

theorem cost_read_le (c : Parser.Construct) (s : σ) :
    c.cost (c.read s).value ≤ c.debt + (c.read s).found.length := (Parser.run_read c s).cost_le

theorem cost_integer_le (s : σ) :
    Expr.optionHoles (Parser.integer s).value ≤ 0 + (Parser.integer s).found.length := by
  unfold Parser.integer
  split
  · exact Nat.zero_le _
  · exact Nat.le_refl 1

/-- **Whatever a reader is asked, it pays for the holes in its answer.** -/
theorem pays_perform (r : Reader σ) (call : Call) : r.Pays call.debt (r.perform call) := by
  cases call with
  | advance | currentIs | upcomingIs | currentPrecedence | upcomingPrecedence | diagnostics =>
    exact pays_of_no_tree (List.append_nil _).symm rfl
  | expect | reportUnexpected | reportNoExpression => exact pays_of_no_tree rfl rfl
  | program => exact pays_accept (cost_read_le (.statements .eof) r.stream)
  | statement => exact pays_acceptStmt (cost_read_le .statement r.stream)
  | letting => exact pays_acceptStmt (cost_read_le .letting r.stream)
  | returning => exact pays_acceptStmt (cost_read_le .returning r.stream)
  | expressionStatement => exact pays_acceptStmt (cost_read_le .expressionStatement r.stream)
  | block => exact pays_acceptStmt (cost_read_le .block r.stream)
  | value => exact pays_acceptExpr (cost_read_le .value r.stream)
  | expression p => exact pays_acceptExpr (cost_read_le (.expression p) r.stream)
  | identifier | boolean => exact pays_acceptExpr (Nat.le_refl 0)
  | integer => exact pays_acceptExpr (cost_integer_le r.stream)
  | unary => exact pays_acceptExpr (cost_read_le .unary r.stream)
  | binary left => exact pays_acceptExpr (cost_read_le (.binary left) r.stream)
  | grouped => exact pays_acceptExpr (cost_read_le .grouped r.stream)
  | conditional => exact pays_acceptExpr (cost_read_le .conditional r.stream)
  | function => exact pays_acceptExpr (cost_read_le .function r.stream)
  | parameters => exact pays_accept (o := Parser.parameters r.stream) (cost_read_le .parameters _)

end Reader

namespace Parser

/-- The tree of a text has at most as many incomplete nodes as there are diagnostics. -/
theorem holes_parse_le (source : String) :
    holes (parse source).1.nodes ≤ (parse source).2.length := by
  have h : holes (parse source).1.nodes ≤ 0 + (parse source).2.length :=
    (run_read (.statements .eof) (Window.ofSource source)).cost_le
  omega

/-- **Every hole in a tree is paid for by a diagnostic of its own.**  The tree of a text has at
most as many incomplete nodes as the text has diagnostics, and none if it has none.  And
whatever a reader is asked for, wherever it stands, the incomplete nodes of its answer are, but
for those in a left operand that it was handed, at most as many as the diagnostics it adds; an
answer without a tree counts as one of them, so that no expression is missing in silence. -/
theorem holes_paid :
    (∀ source, holes (parse source).1.nodes ≤ (parse source).2.length ∧
      ((parse source).2 ≠ [] ∨ ∀ n ∈ (parse source).1.nodes, ¬ n.incomplete)) ∧
    ∀ (r : Reader) (call : Call), ∃ new,
      (r.perform call).2.diagnostics = r.diagnostics ++ new ∧
      (r.perform call).1.holes ≤ call.debt + new.length ∧
      ∀ p, call = .expression p → (r.perform call).1 = .tree none → new ≠ [] := by
  refine ⟨fun source => ⟨holes_parse_le source, ?_⟩, fun r call => ?_⟩
  · by_cases hnone : (parse source).2 = []
    · right
      have hle := holes_parse_le source
      rw [hnone] at hle
      exact List.countP_eq_zero.mp (Nat.le_zero.mp hle)
    · exact Or.inl hnone
  · obtain ⟨new, hnew, hle⟩ := r.pays_perform call
    refine ⟨new, hnew, hle, ?_⟩
    rintro p rfl hmissing rfl
    rw [hmissing] at hle
    exact Nat.not_succ_le_zero 0 hle

end Parser
end MonkeyFrontend
