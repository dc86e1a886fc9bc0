import MonkeyFrontend.Proofs.Parser.Ownership
import MonkeyFrontend.Proofs.Tree.Canonical

/-! # Parsed trees agree with their tokens

The parser fills the fields of a node from the token that the node keeps, or from what a table of
handlers says of the kind of that token, also where it goes on after a failure.  So every node of
a parsed tree agrees with its token, whatever the text (`Run.consistent`), and two texts whose trees
have the same data have the same canonical tree (`consistent_parse`).

The induction is on runs.  A construct that is entered on a token of a certain kind takes that kind
as an assumption; one that is handed a first part takes over that the part is consistent.
-/
namespace MonkeyFrontend
namespace Parser

open TokenSupply

variable {s t : TokenStream}

/-- **What a result agrees with.** -/
def Construct.Agrees : (c : Construct) → TokenStream → c.Value → Prop
  | expression _, _, v | operand, _, v | grouped, _, v | value, _, v =>
    Consistent (Expr.optionNodes v)
  | conditional, s, v => (current s).kind = .ifWord → Consistent (Expr.optionNodes v)
  | function, s, v => (current s).kind = .functionWord → Consistent (Expr.optionNodes v)
  | unary, s, e => (current s).kind = .bang ∨ (current s).kind = .minus → Consistent e.nodes
  | binary left, s, e =>
    (current s).kind ∈ [.plus, .minus, .asterisk, .slash, .lt, .gt, .eq, .notEq] →
      Consistent left.nodes → Consistent e.nodes
  | operators _ left, _, e => Consistent left.nodes → Consistent e.nodes
  | lastValue v, _, w => Consistent (Expr.optionNodes v) → Consistent (Expr.optionNodes w)
  | branches keyword c, _, v => keyword.kind = .ifWord → Consistent (Expr.optionNodes c) →
    Consistent (Expr.optionNodes v)
  | alternative, _, v => Consistent (v.elim [] Block.optionNodes)
  | braced, _, v => Consistent (Block.optionNodes v)
  | block, s, b => (current s).kind = .lbrace → Consistent b.nodes
  | statements closer, _, ss => Consistent (Stmt.listNodes ss) ∧ ∀ x ∈ ss, x.token.kind ≠ closer
  | statement, s, x => (current s).kind ≠ .eof → Consistent x.nodes ∧ x.token = current s
  | letting, s, x => (current s).kind = .letWord → Consistent x.nodes ∧ x.token = current s
  | returning, s, x => (current s).kind = .returnWord → Consistent x.nodes ∧ x.token = current s
  | expressionStatement, s, x => (current s).kind ≠ .letWord → (current s).kind ≠ .returnWord →
    (current s).kind ≠ .eof → Consistent x.nodes ∧ x.token = current s
  | parameters, _, ps | moreParameters, _, ps => Consistent (ps.elim [] (·.map Identifier.node))

/-- **Whatever is read agrees with its tokens.** -/
theorem Run.agrees {c : Construct} {v : c.Value} {ds : List Diagnostic} (h : Run c s v ds t)
    (hs : s.Spelled) : c.Agrees s v := by
  induction h with
  -- Nothing is there.
  | integer_bad | operand_missing | alternative_absent | braced_missing
  | parameters_none | parameters_bare | moreParameters_bare | moreParameters_end
  | moreParameters_open | expression_missing | grouped_open => exact .nil
  | conditional_bare | conditional_open | function_bare | function_open => exact fun _ => .nil
  | branches_missing => exact fun _ _ => .nil
  | statements_stop => exact ⟨.nil, List.forall_mem_nil _⟩
  | operators_stop | lastValue_stop | lastValue_closed => exact fun hleft => hleft
  -- One node is there.
  | identifier hk => exact .cons (Identifier.consistent_ofToken hk) .nil
  | @integer s n hk hn =>
    have hmem : current s ∈ s.ahead := by
      rw [ahead_of_kind hk nofun]
      exact List.mem_cons_self
    obtain ⟨hle, rfl⟩ := (integerValue?_eq_some_iff (hk ▸ hs _ hmem)).mp hn
    exact .cons ⟨hk, hle, rfl⟩ .nil
  | boolean hk => exact .cons ⟨hk, beq_iff_eq⟩ .nil
  -- The result is that of one part.
  | operand_unary hk _ ih => exact ih hs hk
  | operand_grouped _ _ ih => exact ih hs
  | operand_conditional hk _ ih | operand_function hk _ ih => exact ih hs hk
  | grouped _ _ ih => exact ih hs.advance
  | braced hk _ ih => exact ih hs.advance hk
  | @alternative s ds t b _ _ ih =>
    cases b with
    | none => exact .nil
    | some b => exact ih hs.advance
  | statement_letting hk _ ih | statement_returning hk _ ih => exact fun _ => ih hs hk
  | statement_expression hlet hreturn _ ih => exact ih hs hlet hreturn
  -- A node stands before its parts, or between them.
  | unary _ ih => exact fun hk => .cons ⟨hk, rfl⟩ (ih hs.advance)
  | binary _ ih => exact fun hk hleft => hleft.append (.cons ⟨hk, rfl⟩ (ih hs.advance))
  | @branches k s ds t es u c b a h _ ih₁ ih₂ =>
    intro hk hcondition
    cases a with
    | none => exact .nil
    | some a => exact .cons hk (hcondition.append ((ih₁ hs).append (ih₂ (hs.of_ahead h.ahead))))
  | conditional _ h _ _ ih₁ ih₂ =>
    intro hk
    have hs' := hs.advance.advance
    exact ih₂ (hs'.of_ahead h.ahead).advance hk (ih₁ hs')
  | @function s ds t es u ps b _ h _ ih₁ ih₂ =>
    intro hk
    cases b with
    | none => exact .nil
    | some b =>
      exact .cons hk ((ih₁ hs.advance).append (ih₂ (hs.advance.of_ahead h.ahead)))
  | block _ ih =>
    intro hk
    obtain ⟨hss, hcloser⟩ := ih hs.advance
    exact .cons ⟨hk, hcloser⟩ hss
  | letting_bare => exact fun hk => ⟨.cons ⟨hk, nofun⟩ .nil, rfl⟩
  | letting_open hname _ =>
    exact fun hk => ⟨.cons ⟨hk, nofun⟩ (.cons (Identifier.consistent_ofToken hname) .nil), rfl⟩
  | letting hname _ _ ih =>
    intro hk
    have hvalue := ih hs.advance.advance.advance
    exact ⟨.cons ⟨hk, fun _ => rfl⟩ (.cons (Identifier.consistent_ofToken hname) hvalue), rfl⟩
  | returning _ ih => exact fun hk => ⟨.cons hk (ih hs.advance), rfl⟩
  | expressionStatement_closed _ _ ih | expressionStatement _ _ ih =>
    exact fun hlet hreturn heof => ⟨.cons ⟨hlet, hreturn, heof⟩ (ih hs), rfl⟩
  | @parameters s ds t ps hname _ ih =>
    cases ps with
    | none => exact .nil
    | some ps => exact .cons (Identifier.consistent_ofToken hname) (ih hs.advance)
  | @moreParameters s ds t ps _ hname _ ih =>
    cases ps with
    | none => exact .nil
    | some ps => exact .cons (Identifier.consistent_ofToken hname) (ih hs.advance.advance)
  -- A second part is read behind the first.
  | expression h _ ih₁ ih₂ => exact ih₂ (hs.of_ahead h.ahead) (ih₁ hs)
  | operators_step hp h _ ih₁ ih₂ =>
    intro hleft
    have hnext := ih₁ hs.advance (Kind.mem_binary_of_lt_precedence hp) hleft
    exact ih₂ (hs.advance.of_ahead h.ahead) hnext
  | value h _ ih₁ ih₂ => exact ih₂ (hs.of_ahead h.ahead) (ih₁ hs)
  | lastValue_step _ _ h _ ih₁ ih₂ =>
    exact fun _ => ih₂ (hs.advance.of_ahead h.ahead) (ih₁ hs.advance)
  | statements_step hend h _ ih₁ ih₂ =>
    rw [not_or] at hend
    obtain ⟨hx, htoken⟩ := ih₁ hs hend.2
    obtain ⟨hxs, hcloser⟩ := ih₂ (hs.of_ahead h.ahead).advance
    exact ⟨hx.append hxs, List.forall_mem_cons.mpr ⟨htoken ▸ hend.1, hcloser⟩⟩

/-- The nodes of a parsed tree agree with tokens of its text. -/
theorem sound_parse (source : String) : Sound (parse source).1.nodes := by
  obtain ⟨t, hrun⟩ := parse_eq_iff_run.mp (rfl : parse source = ((parse source).1, _))
  have hspelled := TokenStream.spelled_ofSource source
  obtain ⟨ts, hts, hwritten⟩ := hrun.owns
  intro n hn
  refine ⟨(hrun.agrees hspelled).1 n hn, fun u hu => hspelled u ?_⟩
  have htaken : u ∈ ts :=
    hwritten.taken (List.mem_filterMap.mpr ⟨n, List.mem_cons_of_mem _ hn, hu⟩)
  rw [hts]
  exact List.mem_append_left _ htaken

/-- **Every parsed tree agrees with its tokens, and its data forgets nothing else than leading zeros
and the tokens of expressions that stand as statements.** -/
theorem consistent_parse (source other : String) : Consistent (parse source).1.nodes ∧
    ((parse source).1.toJson = (parse other).1.toJson ↔
      (parse source).1.canonical = (parse other).1.canonical) :=
  ⟨fun n hn => (sound_parse source n hn).1,
    Program.toJson_eq_iff (sound_parse source) (sound_parse other)⟩

end Parser
end MonkeyFrontend
