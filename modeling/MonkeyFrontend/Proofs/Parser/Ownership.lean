import Mathlib.Data.List.GetD
import Mathlib.Data.List.Nodup
import MonkeyFrontend.Proofs.Parser.Exact
import MonkeyFrontend.Proofs.Source.Order
import MonkeyFrontend.Proofs.Tree.Written

/-! # Nodes own distinct tokens in source order

Every node captures its token before the parser moves on, and the parser never goes back.  So
the nodes of a result are written with the tokens that its run takes (`Run.owns`), on any input:
what is dropped after a failure leaves tokens that no node owns, and nothing more.

The induction is on runs.  `Takes a b ns` says that `ns` are written with the tokens from `a` on
and before `b`.  A call that is handed a first part takes over what that part was written with.
-/
namespace MonkeyFrontend

open TokenSupply

/-- The nodes `ns` are written with the tokens of `a` that come before its end `b`. -/
def Takes (a b : List Token) (ns : List Node) : Prop := ∃ ts, a = ts ++ b ∧ Written ts ns

namespace Takes

variable {a b c : List Token} {ms ns : List Node} {ss : List Stmt} {t : Token}

theorem suffix (h : Takes a b ns) : b <:+ a := by
  obtain ⟨ts, rfl, _⟩ := h
  exact List.suffix_append ts b

theorem nil (h : b <:+ a) : Takes a b [] := by
  obtain ⟨ts, rfl⟩ := h
  exact ⟨ts, rfl, .nil ts⟩

theorem append (h : Takes a b ms) (h' : Takes b c ns) : Takes a c (ms ++ ns) := by
  obtain ⟨ts, rfl, hms⟩ := h
  obtain ⟨us, rfl, hns⟩ := h'
  exact ⟨ts ++ us, (List.append_assoc _ _ _).symm, hms.append hns⟩

/-- Tokens before that no node owns. -/
theorem earlier (h : Takes b c ns) (hsuffix : b <:+ a) : Takes a c ns := (nil hsuffix).append h

/-- Tokens behind that no node owns. -/
theorem later (h : Takes a b ns) (hsuffix : c <:+ b) : Takes a c ns := by
  rw [← List.append_nil ns]
  exact h.append (nil hsuffix)

theorem cons {n : Node} (htoken : n.token? = some t) (hlist : n.list? = none)
    (h : Takes a b ns) : Takes (t :: a) b (n :: ns) := by
  obtain ⟨ts, rfl, hns⟩ := h
  exact ⟨t :: ts, rfl, hns.cons htoken hlist⟩

theorem block (h : Takes a b (.program ⟨ss⟩ :: Stmt.listNodes ss)) :
    Takes (t :: a) b (Block.mk t ss).nodes := by
  obtain ⟨ts, rfl, hss⟩ := h
  exact ⟨t :: ts, rfl, hss.block⟩

theorem program_nil (a : List Token) : Takes a a [.program ⟨[]⟩] := ⟨[], rfl, .program_nil []⟩

theorem program_single {x : Stmt} (hx : ∀ t v, x ≠ .expression t v) (h : Takes a b x.nodes) :
    Takes a b (.program ⟨[x]⟩ :: x.nodes) := by
  obtain ⟨ts, rfl, hnodes⟩ := h
  exact ⟨ts, rfl, hnodes.program_single hx⟩

/-- An expression as a statement borrows the first token, if anything was taken at all. -/
theorem program_expression {v : Option Expr} (h : Takes (t :: a) b (Expr.optionNodes v))
    (hsuffix : b <:+ a) :
    Takes (t :: a) b (.program ⟨[.expression t v]⟩ :: (Stmt.expression t v).nodes) := by
  obtain ⟨ts, hts, hv⟩ := h
  cases ts with
  | nil =>
    have hle := hsuffix.length_le
    rw [List.nil_append] at hts
    rw [← hts, List.length_cons] at hle
    omega
  | cons u ts =>
    obtain ⟨rfl, rfl⟩ := List.cons.inj hts
    exact ⟨t :: ts, rfl, hv.program_expression⟩

theorem program_cons {x : Stmt} (h : Takes a b (.program ⟨[x]⟩ :: x.nodes))
    (h' : Takes b c (.program ⟨ss⟩ :: Stmt.listNodes ss)) :
    Takes a c (.program ⟨x :: ss⟩ :: Stmt.listNodes (x :: ss)) := by
  obtain ⟨ts, rfl, hx⟩ := h
  obtain ⟨us, rfl, hss⟩ := h'
  exact ⟨ts ++ us, (List.append_assoc _ _ _).symm, hx.program_cons hss⟩

end Takes

namespace TokenStream

variable {s t : TokenStream}

/-- What lies ahead of a later place lies ahead of an earlier one. -/
theorem suffix_of_ahead (h : Ahead s t) : t.ahead <:+ s.ahead :=
  h.preserves (P := fun u => u.ahead <:+ s.ahead)
    (fun _ hu => (List.tail_suffix _).trans hu) List.suffix_rfl

theorem tail_suffix_of_ahead (h : Ahead s t) : t.ahead.tail <:+ s.ahead.tail :=
  h.preserves (P := fun u => u.ahead.tail <:+ s.ahead.tail)
    (fun _ hu => (List.tail_suffix _).trans hu) List.suffix_rfl

end TokenStream

namespace Parser

variable {s t : TokenStream} {b : List Token} {ns : List Node}

/-- A node with the current token, before those that are written behind it. -/
theorem takes_node {n : Node} (hs : (current s).kind ≠ .eof)
    (htoken : n.token? = some (current s)) (hlist : n.list? = none)
    (h : Takes s.ahead.tail b ns) : Takes s.ahead b (n :: ns) := by
  rw [TokenStream.ahead_eq_cons hs]
  exact h.cons htoken hlist

/-- A node without further parts. -/
theorem takes_leaf {n : Node} (hs : (current s).kind ≠ .eof)
    (htoken : n.token? = some (current s)) (hlist : n.list? = none) :
    Takes s.ahead s.ahead.tail [n] := takes_node hs htoken hlist (.nil List.suffix_rfl)

/-- A name with the token behind the current one, before the nodes behind it. -/
theorem takes_name (hname : (upcoming s).kind = .ident) (h : Takes (advance s).ahead.tail b ns) :
    Takes s.ahead.tail b ((Identifier.ofToken (upcoming s)).node :: ns) := by
  have hs : (current (advance s)).kind ≠ .eof := by
    rw [← upcoming_eq, hname]
    nofun
  exact takes_node hs rfl rfl h

/-- What is missing is written with any tokens. -/
theorem takes_none (h : Ahead s t) : Takes s.ahead t.ahead.tail [] :=
  .nil ((List.tail_suffix _).trans (TokenStream.suffix_of_ahead h))

theorem takes_none_tail (h : Ahead s t) : Takes s.ahead.tail t.ahead.tail [] :=
  .nil (TokenStream.tail_suffix_of_ahead h)

/-- An expression that stands as a statement. -/
theorem takes_expression {v : Option Expr} (hs : (current s).kind ≠ .eof) (hst : Ahead s t)
    (h : Takes s.ahead t.ahead.tail (Expr.optionNodes v)) :
    Takes s.ahead t.ahead.tail
      (.program ⟨[.expression (current s) v]⟩ :: (Stmt.expression (current s) v).nodes) := by
  have hsuffix := TokenStream.tail_suffix_of_ahead hst
  have hcons : s.ahead = current s :: s.ahead.tail := TokenStream.ahead_eq_cons hs
  rw [hcons] at h ⊢
  exact h.program_expression hsuffix

/-- **What a result is written with.**  Constructs that begin with their first token take it;
others take what lies behind the token before them. -/
def Construct.Owns : (c : Construct) → TokenStream → c.Value → TokenStream → Prop
  | expression _, s, v, t | operand, s, v, t | grouped, s, v, t | value, s, v, t =>
    Takes s.ahead t.ahead.tail (Expr.optionNodes v)
  | conditional, s, v, t | function, s, v, t => (current s).kind ≠ .eof →
    Takes s.ahead t.ahead.tail (Expr.optionNodes v)
  | unary, s, e, t => (current s).kind ≠ .eof →
    Takes s.ahead t.ahead.tail e.nodes
  | binary left, s, e, t => (current s).kind ≠ .eof → ∀ a,
    Takes a s.ahead left.nodes → Takes a t.ahead.tail e.nodes
  | operators _ left, s, e, t => ∀ a,
    Takes a s.ahead.tail left.nodes → Takes a t.ahead.tail e.nodes
  | lastValue v, s, w, t => ∀ a, Takes a s.ahead.tail (Expr.optionNodes v) →
    Takes a t.ahead.tail (Expr.optionNodes w)
  | branches keyword c, s, v, t => ∀ a,
    Takes a s.ahead.tail (Expr.optionNodes c) →
      Takes (keyword :: a) t.ahead.tail (Expr.optionNodes v)
  | alternative, s, v, t =>
    Takes s.ahead.tail t.ahead.tail (v.elim [] Block.optionNodes)
  | braced, s, v, t => Takes s.ahead.tail t.ahead.tail (Block.optionNodes v)
  | block, s, v, t => (current s).kind ≠ .eof →
    Takes s.ahead t.ahead.tail v.nodes
  | statements _, s, ss, t =>
    Takes s.ahead t.ahead (.program ⟨ss⟩ :: Stmt.listNodes ss)
  | statement, s, x, t | letting, s, x, t | returning, s, x, t
  | expressionStatement, s, x, t => (current s).kind ≠ .eof →
    Takes s.ahead t.ahead.tail (.program ⟨[x]⟩ :: x.nodes)
  | parameters, s, ps, t | moreParameters, s, ps, t =>
    Takes s.ahead.tail t.ahead.tail (ps.elim [] (·.map Identifier.node))

/-- **Whatever is read is written with the tokens that were taken.** -/
theorem Run.owns {c : Construct} {v : c.Value} {ds : List Diagnostic} (h : Run c s v ds t) :
    c.Owns s v t := by
  induction h with
  -- Nothing is there.
  | integer_bad | operand_missing => exact takes_none (.refl _)
  | conditional_bare | function_bare => exact fun _ => takes_none (.refl _)
  | grouped_open h _ _ => exact takes_none h.ahead.of_advance
  | conditional_open _ h _ _ => exact fun _ => takes_none h.ahead.of_advance.of_advance
  | function_open _ h _ => exact fun _ => takes_none h.ahead.of_advance
  | alternative_absent | braced_missing | parameters_bare | moreParameters_open =>
    exact takes_none_tail (.refl _)
  | parameters_none | moreParameters_bare | moreParameters_end => exact takes_none_tail (.next _)
  | statements_stop => exact .program_nil _
  | operators_stop | lastValue_stop => exact fun _ hleft => hleft
  | lastValue_closed => exact fun _ hlast => hlast.later (List.tail_suffix _)
  -- One node is there.
  | identifier hk | integer hk _ => exact takes_leaf (by rw [hk]; nofun) rfl rfl
  | boolean hk => exact takes_leaf (by rcases hk with hk | hk <;> rw [hk] <;> nofun) rfl rfl
  -- The result is that of one part.
  | expression_missing _ ih | operand_grouped _ _ ih => exact ih
  | operand_unary hk _ ih => exact ih (by rcases hk with hk | hk <;> rw [hk] <;> nofun)
  | operand_conditional hk _ ih | operand_function hk _ ih => exact ih (by rw [hk]; nofun)
  | statement_letting _ _ ih | statement_returning _ _ ih | statement_expression _ _ _ ih =>
    exact ih
  | braced hk _ ih => exact ih (by rw [← upcoming_eq, hk]; nofun)
  | grouped _ _ ih => exact (ih.earlier (List.tail_suffix _)).later (List.tail_suffix _)
  | @alternative s ds t b _ _ ih =>
    cases b with
    | none => exact ih.earlier (List.tail_suffix _)
    | some b => exact ih.earlier (List.tail_suffix _)
  -- A node stands before its parts, or between them.
  | unary _ ih =>
    intro hs
    show Takes _ _ (Expr.nodes _)
    rw [Expr.nodes]
    exact takes_node hs rfl rfl ih
  | binary _ ih =>
    intro hs a hleft
    show Takes _ _ (Expr.nodes _)
    rw [Expr.nodes]
    exact hleft.append (takes_node hs rfl rfl ih)
  | block _ ih =>
    intro hs
    show Takes _ _ (Block.nodes _)
    rw [TokenStream.ahead_eq_cons hs]
    exact ih.block.later (List.tail_suffix _)
  | @function s ds t es u ps b _ h h' ih₁ ih₂ =>
    intro hs
    cases b with
    | none => exact takes_none (h.ahead.of_advance.trans h'.ahead)
    | some b =>
      show Takes _ _ (Expr.nodes _)
      rw [Expr.nodes]
      exact takes_node hs rfl rfl ((ih₁.earlier (List.tail_suffix _)).append ih₂)
  | branches_missing h _ =>
    intro a hcondition
    apply Takes.nil
    exact ((TokenStream.tail_suffix_of_ahead h.ahead).trans hcondition.suffix).trans (List.suffix_cons _ _)
  | @branches k s ds t es u c b a h h' ih₁ ih₂ =>
    intro l hcondition
    cases a with
    | none =>
      apply Takes.nil
      exact ((TokenStream.tail_suffix_of_ahead (h.ahead.trans h'.ahead)).trans hcondition.suffix).trans
        (List.suffix_cons _ _)
    | some a =>
      show Takes _ _ (Expr.nodes _)
      rw [Expr.nodes]
      exact (hcondition.append (ih₁.append ih₂)).cons rfl rfl
  | conditional _ h _ _ ih₁ ih₂ =>
    intro hs
    rw [TokenStream.ahead_eq_cons hs]
    exact ih₂ _ ((ih₁.earlier (List.tail_suffix _)).later (List.tail_suffix _))
  | letting_bare =>
    intro hs
    apply Takes.program_single (by simp)
    rw [Stmt.nodes]
    exact takes_leaf hs rfl rfl
  | letting_open hname _ =>
    intro hs
    apply Takes.program_single (by simp)
    rw [Stmt.nodes]
    exact takes_node hs rfl rfl (takes_name hname (.nil List.suffix_rfl))
  | letting hname _ _ ih =>
    intro hs
    apply Takes.program_single (by simp)
    rw [Stmt.nodes]
    exact takes_node hs rfl rfl (takes_name hname (ih.earlier (List.tail_suffix _)))
  | returning _ ih =>
    intro hs
    apply Takes.program_single (by simp)
    rw [Stmt.nodes]
    exact takes_node hs rfl rfl ih
  | expressionStatement_closed h _ ih =>
    exact fun hs => (takes_expression hs h.ahead ih).later (List.tail_suffix _)
  | expressionStatement h _ ih => exact fun hs => takes_expression hs h.ahead ih
  | @parameters s ds t ps hname h ih =>
    cases ps with
    | none => exact takes_none_tail h.ahead.of_advance
    | some ps => exact takes_name hname ih
  | @moreParameters s ds t ps _ hname h ih =>
    cases ps with
    | none => exact takes_none_tail h.ahead.of_advance.of_advance
    | some ps => exact (takes_name hname ih).earlier (List.tail_suffix _)
  -- A second part is read behind the first.
  | expression _ _ ih₁ ih₂ | value _ _ ih₁ ih₂ => exact ih₂ _ ih₁
  | operators_step hp _ _ ih₁ ih₂ =>
    have hnext := Kind.ne_eof_of_lt_precedence hp
    rw [upcoming_eq] at hnext
    exact fun a hleft => ih₂ a (ih₁ hnext a hleft)
  | lastValue_step _ _ _ _ ih₁ ih₂ => exact fun a hlast => ih₂ a (ih₁.earlier hlast.suffix)
  | statements_step hend _ _ ih₁ ih₂ =>
    exact (ih₁ fun heof => hend (Or.inr heof)).program_cons ih₂

end Parser

/-! ## Tokens by their index -/

/-- No two tokens of a text are equal, since they stand at different places. -/
theorem nodup_tokenize (source : String) : (tokenize source).Nodup := by
  have hahead : (TokenStream.ofSource source).ahead.Nodup := by
    refine (TokenStream.increasing_ofSource source).imp fun {t u} hbefore heq => ?_
    subst heq
    rcases hbefore with hline | ⟨-, hcolumn⟩
    · exact Int.lt_irrefl _ hline
    · exact Int.lt_irrefl _ hcolumn
  refine List.nodup_append.mpr ⟨hahead, List.nodup_singleton _, fun t ht u hu heq => ?_⟩
  obtain rfl := List.mem_singleton.mp hu
  subst heq
  exact (TokenStream.spelled_ofSource source _ ht).ne_eof rfl

theorem tokenAt_of_lt {source : String} {i : Nat} (hi : i < (tokenize source).length) :
    tokenAt source i = (tokenize source)[i] := List.getD_eq_getElem _ _ hi

/-- A token of a text is found at its index. -/
theorem tokenAt_idxOf {source : String} {t : Token} (ht : t ∈ tokenize source) :
    tokenAt source ((tokenize source).idxOf t) = t := by
  have hi := List.idxOf_lt_length_of_mem ht
  rw [tokenAt_of_lt hi]
  exact List.getElem_idxOf hi

theorem tokenAt_of_lt_ahead {source : String} {i : Nat}
    (hi : i < (TokenStream.ofSource source).ahead.length) :
    tokenAt source i = (TokenStream.ofSource source).ahead[i] := by
  rw [tokenAt_of_lt (Nat.lt_of_lt_of_le hi (List.prefix_append _ _).length_le)]
  exact List.getElem_append_left hi

/-- Before the end of a text every token is found at one index only. -/
theorem index_eq {source : String} {i j : Nat}
    (hi : i < (TokenStream.ofSource source).ahead.length)
    (h : tokenAt source i = tokenAt source j) : j = i := by
  have hlength : (tokenize source).length = (TokenStream.ofSource source).ahead.length + 1 :=
    List.length_append
  by_cases hj : j < (tokenize source).length
  · have hi' : i < (tokenize source).length := by omega
    rw [tokenAt_of_lt hi', tokenAt_of_lt hj] at h
    exact ((nodup_tokenize source).getElem_inj_iff.mp h).symm
  · -- behind the last token there is the end token only
    have hend : (tokenAt source j).kind = .eof := by
      have hskip : ((TokenStream.ofSource source).skip j).ahead = [] :=
        List.drop_of_length_le (by omega)
      rw [← TokenStream.current_skip, TokenStream.current, hskip]
      rfl
    have hmem : tokenAt source i ∈ (TokenStream.ofSource source).ahead := by
      rw [tokenAt_of_lt_ahead hi]
      exact List.getElem_mem hi
    exact absurd (h ▸ hend) (TokenStream.spelled_ofSource source _ hmem).ne_eof

/-! ## The tree of a text -/

/-- **How the nodes of a tree stand in the text** with the tokens `ts`.  The order of the tokens
is that of the list and that of their lines and columns. -/
structure Sourced (ts : List Token) (p : Program) : Prop where
  owned : (ownedBy p.nodes).Sublist ts
  increasing : (ownedBy p.nodes).Pairwise Token.Before
  owned_ne_eof : ∀ t ∈ ownedBy p.nodes, t.kind ≠ .eof
  taken : ∀ t ∈ tokensOf p.nodes, t ∈ ts ∧ t.kind ≠ .eof
  /-- In every list, all tokens of a statement come before all those of a later one. -/
  apart : ∀ ss ∈ (Node.program p :: p.nodes).filterMap Node.list?, ss.Pairwise fun x y =>
    ∀ t ∈ tokensOf x.nodes, ∀ u ∈ tokensOf y.nodes, t.Before u
  /-- In every list, an expression as a statement begins no later than its value. -/
  leads : ∀ ss ∈ (Node.program p :: p.nodes).filterMap Node.list?, ∀ t v,
    .expression t v ∈ ss → ∀ u ∈ tokensOf (Expr.optionNodes v), u = t ∨ t.Before u

/-- What is written with the tokens of a text stands in the text. -/
theorem Written.sourced {ts : List Token} {p : Program} (h : Written ts (.program p :: p.nodes))
    (hincreasing : ts.Pairwise Token.Before) (hkind : ∀ t ∈ ts, t.kind ≠ .eof) :
    Sourced ts p := by
  have hbefore : ∀ {t u : Token}, [t, u].Sublist ts → t.Before u := by
    intro t u hsub
    exact List.pairwise_pair.mp (hincreasing.sublist hsub)
  constructor
  case owned => exact h.owned
  case increasing => exact hincreasing.sublist h.owned
  case owned_ne_eof => exact fun t ht => hkind t (h.owned.subset ht)
  case taken => exact fun t ht => ⟨h.taken ht, hkind t (h.taken ht)⟩
  case apart =>
    intro ss hss
    exact (h.ordered ss hss).apart.imp fun hxy t ht u hu => hbefore (hxy t ht u hu)
  case leads =>
    intro ss hss t v hmem u hu
    exact ((h.ordered ss hss).leads t v hmem u hu).imp_right hbefore

namespace Parser

/-- **The nodes of a tree own distinct tokens of the text in source order**, whatever the text. -/
theorem sourced_parse (source : String) :
    Sourced (tokenize source).dropLast (parse source).1 := by
  obtain ⟨t, hrun⟩ := parse_eq_iff_run.mp (rfl : parse source = ((parse source).1, _))
  have htokens : (tokenize source).dropLast = (TokenStream.ofSource source).ahead :=
    List.dropLast_concat
  obtain ⟨ts, hts, hwritten⟩ := hrun.owns
  have hsub : ts.Sublist (TokenStream.ofSource source).ahead := by
    rw [hts]
    exact List.sublist_append_left _ _
  rw [htokens]
  apply (hwritten.mono hsub).sourced (TokenStream.increasing_ofSource source)
  exact fun u hu => (TokenStream.spelled_ofSource source u hu).ne_eof

end Parser
end MonkeyFrontend
