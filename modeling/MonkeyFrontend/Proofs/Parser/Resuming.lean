import MonkeyFrontend.Proofs.Parser.Call
import MonkeyFrontend.Token.Stream

/-! # Reading an expression is resumed in a looser context

How far an expression goes is decided by the operators behind it: reading stops before the first
one that binds no more tightly than the context.  So an expression in a loose context can be read in
two parts, first what a tighter context takes of it and then the further operators behind that
(`expression_factors`), whatever the tokens are and whatever is missing or reported on the way.

The induction is on the run over the operators of the tighter context.  Each of them is an operator
of the looser one as well, and its right operand is read in a context of its own, which does not
depend on either.
-/
namespace MonkeyFrontend
namespace Parser

open TokenSupply

variable {σ : Type} [TokenSupply σ] {s t : σ} {p q : Precedence}

/-- Goes on behind an expression, if there is one, with the operators that bind more tightly than
`q`. -/
def resume (q : Precedence) (o : Outcome (Option Expr) s) : Outcome (Option Expr) s :=
  match o.value with
  | none => o
  | some left => o.andThen ((operators q left o.stream).map some)

/-! ## Where operators stop -/

/-- Behind operators comes nothing that binds more tightly than their context. -/
def Construct.StopsAt (t : σ) : Construct → Prop
  | .operators p _ => (upcoming t).kind.precedence ≤ p
  | _ => True

theorem Run.stopsAt {c : Construct} {v : c.Value} {ds : List Diagnostic} (h : Run c s v ds t) :
    c.StopsAt t := by
  induction h with
  | operators_stop hp => exact Nat.not_lt.mp hp
  | operators_step _ _ _ _ ih => exact ih
  | _ => trivial

/-- Behind an expression comes nothing that binds more tightly than its context. -/
theorem Run.expression_stopsAt {e : Expr} {ds : List Diagnostic}
    (h : Run (.expression p) s (some e) ds t) : (upcoming t).kind.precedence ≤ p := by
  cases h with
  | expression _ hoperators => exact hoperators.stopsAt

/-! ## Operators of a tighter and of a looser context -/

/-- What a run over operators leaves to a looser context: the operators behind it, and the two runs
together are one over the operators of that context. -/
def Construct.Resumes (q : Precedence) :
    (c : Construct) → σ → c.Value → List Diagnostic → σ → Prop
  | .operators p left, s, next, ds, t => q ≤ p → ∀ (e : Expr) (es : List Diagnostic) (u : σ),
      Run (.operators q next) t e es u → Run (.operators q left) s e (ds ++ es) u
  | _, _, _, _, _ => True

theorem Run.resumes {c : Construct} {v : c.Value} {ds : List Diagnostic} (h : Run c s v ds t)
    (q : Precedence) : c.Resumes q s v ds t := by
  induction h with
  | operators_stop => exact fun _ e es u hrest => hrest
  | operators_step hp hnext _ _ ih =>
    intro hqp e es u hrest
    have hq : q < _ := Nat.lt_of_le_of_lt hqp hp
    rw [List.append_assoc]
    exact .operators_step hq hnext (ih hqp e es u hrest)
  | _ => trivial

/-! ## Expressions of a tighter and of a looser context -/

/-- An expression that is missing in one context is missing in every other. -/
theorem Run.expression_none {ds : List Diagnostic} (h : Run (.expression p) s none ds t)
    (q : Precedence) : Run (.expression q) s none ds t := by
  cases h with
  | expression_missing hoperand => exact .expression_missing hoperand

/-- An expression of a tighter context, with the operators of a looser one behind it, is an
expression of the looser one. -/
theorem Run.expression_some {left e : Expr} {ds es : List Diagnostic} {u : σ} (hqp : q ≤ p)
    (h : Run (.expression p) s (some left) ds t) (hrest : Run (.operators q left) t e es u) :
    Run (.expression q) s (some e) (ds ++ es) u := by
  cases h with
  | expression hoperand hoperators =>
    have hwhole := hoperators.resumes q hqp _ _ _ hrest
    rw [List.append_assoc]
    exact .expression hoperand hwhole

/-- **Reading an expression is resumed in a looser context.**  At whatever place and of whatever
tokens, an expression of the context `q` is what comes of an expression of a tighter context `p`
when reading goes on behind it with the operators that bind more tightly than `q`; if the one is
missing, so is the other.  Value, diagnostics and the place reached are the same.  And behind an
expression of the context `p` comes nothing that binds more tightly than `p`. -/
theorem expression_factors (hqp : q ≤ p) (s : σ) :
    expression q s = resume q (expression p s) ∧
      ∀ e, (expression p s).value = some e →
        (upcoming (expression p s).stream).kind.precedence ≤ p := by
  obtain ⟨v, ds, t, hrun⟩ := exists_run (.expression p) s
  obtain ⟨_, htight⟩ : Gives (expression p s) v ds t := hrun.gives
  rw [htight]
  cases v with
  | none =>
    obtain ⟨_, hloose⟩ := (hrun.expression_none q).gives
    exact ⟨hloose, nofun⟩
  | some left =>
    have hrest := run_read (.operators q left) t
    obtain ⟨_, hloose⟩ := (hrun.expression_some hqp hrest).gives
    exact ⟨hloose, fun e _ => hrun.expression_stopsAt⟩

/-- The tokens of the text `a * b + c`. -/
def productTokens : TokenStream where
  ahead := [⟨.ident, "a", ⟨1, 1⟩⟩, ⟨.asterisk, "*", ⟨1, 3⟩⟩, ⟨.ident, "b", ⟨1, 5⟩⟩,
    ⟨.plus, "+", ⟨1, 7⟩⟩, ⟨.ident, "c", ⟨1, 9⟩⟩]
  stop := ⟨1, 10⟩

/-- The product in this text. -/
def productExpr : Expr :=
  .binary ⟨.asterisk, "*", ⟨1, 3⟩⟩ (.identifier ⟨⟨.ident, "a", ⟨1, 1⟩⟩, "a"⟩) "*"
    (some (.identifier ⟨⟨.ident, "b", ⟨1, 5⟩⟩, "b"⟩))

/-- In the context of a sum the text is read as far as its product, and from there to its end in the
loosest context. -/
theorem expression_factors_product : TokenStream.ofSource "a * b + c" = productTokens ∧
    Precedence.lowest ≤ .sum ∧ (expression .sum productTokens).value = some productExpr ∧
      expression .lowest productTokens = resume .lowest (expression .sum productTokens) ∧
      (upcoming (expression .sum productTokens).stream).kind.precedence ≤ .sum := by
  have hsource : TokenStream.ofSource "a * b + c" = productTokens := by decide +kernel
  have hloose : Precedence.lowest ≤ .sum := by decide
  have hright : Run (.expression .product) (productTokens.skip 2)
      (some (.identifier ⟨⟨.ident, "b", ⟨1, 5⟩⟩, "b"⟩)) [] (productTokens.skip 2) :=
    .expression (.identifier rfl) (.operators_stop (by decide))
  have hbinary : Run (.binary (.identifier ⟨⟨.ident, "a", ⟨1, 1⟩⟩, "a"⟩)) (productTokens.skip 1)
      productExpr [] (productTokens.skip 2) := .binary (s := productTokens.skip 1) hright
  have htimes : Precedence.sum < (upcoming productTokens).kind.precedence := by decide
  have hplus : ¬ Precedence.sum < (upcoming (productTokens.skip 2)).kind.precedence := by decide
  have hproduct : Run (.expression .sum) productTokens (some productExpr) []
      (productTokens.skip 2) :=
    .expression (.identifier rfl) (.operators_step htimes hbinary (.operators_stop hplus))
  obtain ⟨_, hgives⟩ := hproduct.gives
  have hvalue : (expression .sum productTokens).value = some productExpr :=
    congrArg Outcome.value hgives
  obtain ⟨hresumed, hstop⟩ := expression_factors hloose productTokens
  exact ⟨hsource, hloose, hvalue, hresumed, hstop _ hvalue⟩

end Parser
end MonkeyFrontend
