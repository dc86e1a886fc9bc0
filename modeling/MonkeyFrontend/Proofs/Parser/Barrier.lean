import MonkeyFrontend.Proofs.Parser.Ownership
import MonkeyFrontend.Proofs.Parser.Stretches
import MonkeyFrontend.Proofs.Source.Braces

/-! # No expression continues behind its semicolon

An expression ends before a semicolon, and so does the value of a let or return statement.  That is
what the parser looks for before each further operator and each further expression, but it does not
make every semicolon a border.  Those in the blocks of conditionals and functions end statements of
the block, also where the conditional or function is given up and only a later expression stays in
the tree.  And a semicolon at which an operand is missing is passed before the parser looks, if a
binary operator or a closing parenthesis comes next; otherwise it is a border like the others.

`Run.keeps` says that there are no others.  The induction is on runs: whatever is read of an
expression leaves a clear stretch behind it, and what comes into the tree spans a clear stretch
from its own first token.  Where the stretch of a parenthesis is longer than that of the expression
in it, both are kept.  From the stretches the statement on the indices of tokens is read off
(`Crossing.atOperand_or_inBlock`).

It cannot be said by counting braces (`not_barred_openReturn`): a statement without a semicolon at
the end of a block takes the closing brace, and then the block is open behind it.
-/
namespace MonkeyFrontend

open TokenSupply

/-- The nodes whose texts a semicolon ends: operators with their operands, and the statements that
have a value. -/
def Node.Bounded : Node → Prop
  | .expression (.unary _ _ _) | .expression (.binary _ _ _ _) => True
  | .statement (.letting _ _ _) | .statement (.returning _ _) => True
  | _ => False

namespace Parser

variable {root a b s t u : TokenStream} {n : Node} {ms ns : List Node}

/-- **Some nodes span a clear stretch**: they are written with the tokens from `a` to `b`, the first
of which is theirs. -/
structure Spans (a b : TokenStream) (ns : List Node) : Prop where
  first : (ownedBy ns).head? = some (current a)
  takes : Takes a.ahead b.ahead.tail ns
  clear : Clear a b

/-- A node without parts spans its token. -/
theorem Spans.single (hend : (current s).kind ≠ .eof) (howned : n.owned? = some (current s))
    (htoken : n.token? = some (current s)) (hlist : n.list? = none) : Spans s s [n] where
  first := by rw [ownedBy, List.filterMap_cons_some howned, List.head?_cons]
  takes := takes_leaf hend htoken hlist
  clear := .refl s

/-- A let statement without a value spans its keyword and its name. -/
theorem Spans.name (hend : (current s).kind ≠ .eof) (hname : (upcoming s).kind = .ident) :
    Spans s (advance s) (Stmt.letting (current s) (some (.ofToken (upcoming s))) none).nodes where
  first := rfl
  takes := takes_node hend rfl rfl (takes_name hname (.nil List.suffix_rfl))
  clear := .of_kind hname (by decide)

/-- Every bounded one of some nodes spans a clear stretch behind some place. -/
def Fenced (root : TokenStream) (ns : List Node) : Prop := ∀ n ∈ ns, n.Bounded →
  ∃ a b, Ahead root a ∧ Spans a b n.nodes

namespace Fenced

theorem nil (root : TokenStream) : Fenced root [] := List.forall_mem_nil _

theorem cons (hn : n.Bounded → ∃ a b, Ahead root a ∧ Spans a b n.nodes) (h : Fenced root ns) :
    Fenced root (n :: ns) := List.forall_mem_cons.mpr ⟨hn, h⟩

theorem append (h : Fenced root ms) (h' : Fenced root ns) : Fenced root (ms ++ ns) :=
  List.forall_mem_append.mpr ⟨h, h'⟩

/-- Names are not bounded. -/
theorem names (root : TokenStream) (ps : List Identifier) :
    Fenced root (ps.map Identifier.node) := by
  intro n hn hbounded
  obtain ⟨i, -, rfl⟩ := List.mem_map.mp hn
  exact hbounded.elim

end Fenced

/-- A closing parenthesis may follow. -/
theorem Spans.close (h : Spans a s ns) (hclose : (upcoming s).kind = .rparen) :
    Spans a (advance s) ns where
  first := h.first
  takes := h.takes.later (TokenStream.tail_suffix_of_ahead (.next s))
  clear := h.clear.close hclose

/-- **What reading an expression leaves behind**: the stretch that was read is clear, and the
expression spans the end of it. -/
structure Stays (root s t : TokenStream) (v : Option Expr) : Prop where
  clear : Clear s t
  spans : ∀ e ∈ v, ∃ a, Ahead s a ∧ Spans a t e.nodes
  fenced : Fenced root (Expr.optionNodes v)

theorem Stays.none (root : TokenStream) (h : Clear s t) : Stays root s t none where
  clear := h
  spans := nofun
  fenced := .nil root

/-- An expression that begins with the current token. -/
theorem Stays.of_first {e : Expr} (hclear : Clear s t)
    (hfirst : (ownedBy e.nodes).head? = some (current s))
    (htakes : Takes s.ahead t.ahead.tail e.nodes) (hfenced : Fenced root e.nodes) :
    Stays root s t (some e) where
  clear := hclear
  spans := by
    rintro _ ⟨⟩
    exact ⟨s, .refl s, hfirst, htakes, hclear⟩
  fenced := hfenced

/-- **How a result keeps to clear stretches**, for constructs that are read behind `root`. -/
def Construct.Keeps (root : TokenStream) :
    (c : Construct) → TokenStream → c.Value → TokenStream → Prop
  | expression _, s, v, t | operand, s, v, t => Stays root s t v
  | grouped, s, v, t => (current s).kind = .lparen → Stays root s t v
  | conditional, s, v, t => (current s).kind = .ifWord → Stays root s t v
  | function, s, v, t => (current s).kind = .functionWord → Stays root s t v
  | unary, s, e, t => (current s).kind = .bang ∨ (current s).kind = .minus →
    Stays root s t (some e)
  | binary left, s, e, t =>
    (current s).kind ∈ [.plus, .minus, .asterisk, .slash, .lt, .gt, .eq, .notEq] → ∀ a,
      Ahead root a → (ownedBy left.nodes).head? = some (current a) → Clear a s →
      Takes a.ahead s.ahead left.nodes → Fenced root left.nodes →
        Clear s t ∧ Spans a t e.nodes ∧ Fenced root e.nodes
  | operators _ left, s, e, t => ∀ a, Ahead root a → Spans a s left.nodes →
    Fenced root left.nodes → Clear s t ∧ Spans a t e.nodes ∧ Fenced root e.nodes
  | value, s, v, _ => Fenced root (Expr.optionNodes v) ∧
    ∃ m, Clear s m ∧ Takes s.ahead m.ahead.tail (Expr.optionNodes v)
  | lastValue v, s, w, _ =>
    (Fenced root (Expr.optionNodes v) → Fenced root (Expr.optionNodes w)) ∧
    ∃ m, Clear s m ∧ Seam s m ∧ ∀ l, Takes l s.ahead.tail (Expr.optionNodes v) →
      Takes l m.ahead.tail (Expr.optionNodes w)
  | branches keyword c, s, v, t =>
    (Fenced root (Expr.optionNodes c) → Fenced root (Expr.optionNodes v)) ∧
    (∀ e ∈ v, (ownedBy e.nodes).head? = some keyword) ∧
    ∀ q, Clear q s → (current s).kind ≠ .semicolon →
      ((upcoming s).kind = .lbrace → OpensFirst q (advance s)) → Clear q t
  | alternative, s, v, t => Fenced root (v.elim [] Block.optionNodes) ∧
    ∀ q u ds (b : Block), OpensFirst q u → Run .block u b ds s → Clear q s → Clear q t
  | braced, s, v, t => Fenced root (Block.optionNodes v) ∧
    ∀ q, Clear q s → (current s).kind ≠ .semicolon →
      ((upcoming s).kind = .lbrace → OpensBlock q (advance s)) → Clear q t
  | block, _, b, _ => Fenced root b.nodes
  | statements _, _, ss, _ => Fenced root (Stmt.listNodes ss)
  | statement, _, x, _ | expressionStatement, _, x, _ => Fenced root x.nodes
  | letting, s, x, _ => (current s).kind = .letWord → Fenced root x.nodes
  | returning, s, x, _ => (current s).kind = .returnWord → Fenced root x.nodes
  | parameters, s, _, t | moreParameters, s, _, t =>
    Clear s t ∧ ((current s).kind ≠ .semicolon → (current t).kind ≠ .semicolon)

/-- **Every run keeps to clear stretches.** -/
theorem Run.keeps {c : Construct} {v : c.Value} {ds : List Diagnostic} (h : Run c s v ds t)
    (hs : Ahead root s) : c.Keeps root s v t := by
  induction h with
  -- Nothing is there.
  | integer_bad | operand_missing => exact .none root (.refl _)
  | conditional_bare | function_bare => exact fun _ => .none root (.refl _)
  | parameters_bare | moreParameters_open => exact ⟨.refl _, id⟩
  | parameters_none hk | moreParameters_end hk | moreParameters_bare hk _ =>
    exact ⟨.of_kind hk (by decide), fun _ => by rw [← upcoming_eq, hk]; decide⟩
  | statements_stop => exact .nil root
  | alternative_absent => exact ⟨.nil root, fun _ _ _ _ _ _ hclear => hclear⟩
  | braced_missing => exact ⟨.nil root, fun _ hclear _ _ => hclear⟩
  | operators_stop => exact fun a _ hleft hfenced => ⟨.refl _, hleft, hfenced⟩
  | lastValue_stop | lastValue_closed => exact ⟨id, _, .refl _, .stays rfl, fun _ hlast => hlast⟩
  -- One node is there.
  | @identifier s hk | @integer s _ hk _ =>
    have hend : (current s).kind ≠ .eof := by rw [hk]; decide
    exact .of_first (.refl s) rfl (takes_leaf hend rfl rfl) (.cons (·.elim) (.nil root))
  | @boolean s hk =>
    have hend : (current s).kind ≠ .eof := by rcases hk with hk | hk <;> rw [hk] <;> decide
    exact .of_first (.refl s) rfl (takes_leaf hend rfl rfl) (.cons (·.elim) (.nil root))
  -- The result is that of one part.
  | expression_missing _ ih => exact ih hs
  | operand_unary hk _ ih => exact ih hs hk
  | operand_grouped hk _ ih | operand_conditional hk _ ih | operand_function hk _ ih =>
    exact ih hs hk
  | statement_letting hk _ ih | statement_returning hk _ ih => exact ih hs hk
  | statement_expression _ _ _ ih => exact ih hs
  | expressionStatement_closed _ _ ih | expressionStatement _ _ ih =>
    exact .cons (·.elim) (ih hs).fenced
  | block _ ih => exact .cons (·.elim) (ih hs.advance)
  | braced hbrace h ih =>
    refine ⟨ih hs.advance, fun q hclear hkind hopens => ?_⟩
    exact hclear.block hkind hbrace (hopens hbrace) h
  | @alternative s ds t b helse h ih =>
    obtain ⟨hblock, hclear⟩ := ih hs.advance
    refine ⟨?_, fun q u es c hfirst hrun hq => ?_⟩
    · cases b with
      | none => exact .nil root
      | some b => exact hblock
    · have helse' : Clear q (advance s) :=
        hq.step helse (by decide) (.other hrun.block_ne_semicolon)
      exact hclear q helse' (by rw [← upcoming_eq, helse]; decide) fun hbrace =>
        .alternative hfirst hrun helse hbrace
  -- A node stands before its parts, or between them.
  | @unary s ds t r h ih =>
    intro hk
    have hend : (current s).kind ≠ .eof := by rcases hk with hk | hk <;> rw [hk] <;> decide
    have hoperand : (current s).kind ∈ Kind.beforeOperand := by
      rcases hk with hk | hk <;> rw [hk] <;> decide
    have hright := ih hs.advance
    have hclear : Clear s t := .operand hoperand h hright.clear
    have htakes := (Run.unary h).owns hend
    have hfirst : (ownedBy (Expr.unary (current s) (current s).literal r).nodes).head? =
      some (current s) := rfl
    exact .of_first hclear hfirst htakes
      (.cons (fun _ => ⟨s, t, hs, hfirst, htakes, hclear⟩) hright.fenced)
  | @binary s ds t left r h ih =>
    intro hk a ha hfirst hleft htakes hfenced
    have hend : (current s).kind ≠ .eof := by
      intro heof
      rw [heof] at hk
      contradiction
    have hoperand : (current s).kind ∈ Kind.beforeOperand :=
      List.mem_cons_of_mem _ (List.mem_cons_of_mem _ hk)
    have hright := ih hs.advance
    have hclear : Clear s t := .operand hoperand h hright.clear
    have hspans : Spans a t (Expr.binary (current s) left (current s).literal r).nodes := by
      have hother : (current s).kind ≠ .semicolon := by
        intro hsemicolon
        rw [hsemicolon] at hk
        contradiction
      refine ⟨?_, (Run.binary h).owns hend _ htakes, hleft.trans hclear (.other hother)⟩
      rw [Expr.nodes, ownedBy, List.filterMap_append, List.head?_append]
      exact congrArg (Option.or · _) hfirst
    exact ⟨hclear, hspans, hfenced.append (.cons (fun _ => ⟨a, t, ha, hspans⟩) hright.fenced)⟩
  | @grouped s ds t v h hclose ih =>
    intro hk
    have hinner := ih hs.advance
    have hopen : Clear s t := .operand (by rw [hk]; decide) h hinner.clear
    refine ⟨hopen.close hclose, fun e he => ?_, hinner.fenced⟩
    obtain ⟨a, ha, hspans⟩ := hinner.spans e he
    exact ⟨a, ha.of_advance, hspans.close hclose⟩
  | @grouped_open s ds t v h hclose ih =>
    intro hk
    exact .none root (.operand (by rw [hk]; decide) h (ih hs.advance).clear)
  | @conditional_open s ds t c hopen h hclose ih =>
    intro hk
    exact .none root (.parenthesis hopen h (ih hs.advance.advance).clear)
  | @conditional s ds t es u c v hopen h hclose h' ih₁ ih₂ =>
    intro hk
    have hend : (current s).kind ≠ .eof := by rw [hk]; decide
    have hcondition := ih₁ hs.advance.advance
    have hinside : Clear s t := .parenthesis hopen h hcondition.clear
    have hheader : Clear s (advance t) := hinside.close hclose
    have hkind : (current (advance t)).kind ≠ .semicolon := by
      rw [← upcoming_eq, hclose]
      decide
    obtain ⟨hfenced, hfirst, hbranches⟩ := ih₂ (hs.trans hheader.ahead)
    have hclear : Clear s u := hbranches s hheader hkind fun hbrace =>
      ⟨hk, hopen, c, ds, t, h, hclose, hbrace, rfl⟩
    have htakes := (Run.conditional hopen h hclose h').owns hend
    cases v with
    | none => exact .none root hclear
    | some e => exact .of_first hclear (hfirst e rfl) htakes (hfenced hcondition.fenced)
  | branches_missing h ih =>
    obtain ⟨-, hclear⟩ := ih hs
    refine ⟨fun _ => .nil root, fun e he => absurd he (Option.not_mem_none e), ?_⟩
    intro q hq hkind hopens
    exact hclear q hq hkind fun hbrace => .consequence (hopens hbrace)
  | @branches k s ds t es u c b a h h' ih₁ ih₂ =>
    obtain ⟨hblock, hclear⟩ := ih₁ hs
    obtain ⟨halternative, hclear'⟩ := ih₂ (hs.trans h.ahead)
    obtain ⟨hbrace, hrun⟩ := h.block_of_braced
    refine ⟨fun hcondition => ?_, ?_, fun q hq hkind hopens => ?_⟩
    · cases a with
      | none => exact .nil root
      | some a => exact .cons (·.elim) (hcondition.append (hblock.append halternative))
    · cases a with
      | none => exact fun e he => absurd he (Option.not_mem_none e)
      | some a =>
        rintro _ ⟨⟩
        rfl
    · have hq' := hclear q hq hkind fun hbrace => .consequence (hopens hbrace)
      exact hclear' q _ _ b (hopens hbrace) hrun hq'
  | @function_open s ds t hopen h ih =>
    intro hk
    obtain ⟨hnames, -⟩ := ih hs.advance
    exact .none root (hnames.behind hopen (by decide))
  | @function s ds t es u ps b hopen h h' ih₁ ih₂ =>
    intro hk
    have hend : (current s).kind ≠ .eof := by rw [hk]; decide
    obtain ⟨hnames, hlast⟩ := ih₁ hs.advance
    have hheader : Clear s t := hnames.behind hopen (by decide)
    have hkind : (current t).kind ≠ .semicolon := hlast (by rw [← upcoming_eq, hopen]; decide)
    obtain ⟨hbody, hbraced⟩ := ih₂ (hs.trans hheader.ahead)
    have hclear : Clear s u := hbraced s hheader hkind fun hbrace => .body hk hopen h hbrace
    have htakes := (Run.function hopen h h').owns hend
    cases b with
    | none => exact .none root hclear
    | some b =>
      exact .of_first hclear rfl htakes (.cons (·.elim) ((Fenced.names root ps).append hbody))
  -- The statements with a value.
  | @letting_bare s hname =>
    intro hk
    have hend : (current s).kind ≠ .eof := by rw [hk]; decide
    exact .cons (fun _ => ⟨s, s, hs, .single hend rfl rfl rfl⟩) (.nil root)
  | @letting_open s hname _ =>
    intro hk
    have hend : (current s).kind ≠ .eof := by rw [hk]; decide
    exact .cons (fun _ => ⟨s, advance s, hs, .name hend hname⟩) (Fenced.names root [_])
  | @letting s ds t v hname hassign h ih =>
    intro hk
    have hend : (current s).kind ≠ .eof := by rw [hk]; decide
    have hsign : Clear s (advance (advance s)) :=
      (Clear.of_kind hassign (by decide)).behind hname (by decide)
    have hkind : (current (advance (advance s))).kind ≠ .semicolon := by
      rw [← upcoming_eq, hassign]
      decide
    obtain ⟨hfenced, m, hclear, htakes⟩ := ih hs.advance.advance.advance
    refine .cons (fun _ => ?_) ((Fenced.names root [_]).append hfenced)
    -- the semicolon of the statement may come where its value should begin
    rcases h.value_none_or_clear hsign hkind hclear with rfl | hclear
    · exact ⟨s, advance s, hs, .name hend hname⟩
    · have htakes : Takes s.ahead m.ahead.tail
          (Stmt.letting (current s) (some (.ofToken (upcoming s))) v).nodes :=
        takes_node hend rfl rfl (takes_name hname (htakes.earlier (List.tail_suffix _)))
      exact ⟨s, m, hs, rfl, htakes, hclear⟩
  | @returning s ds t v h ih =>
    intro hk
    have hend : (current s).kind ≠ .eof := by rw [hk]; decide
    obtain ⟨hfenced, m, hclear, htakes⟩ := ih hs.advance
    refine .cons (fun _ => ?_) hfenced
    rcases h.value_none_or_clear (.refl s) (by rw [hk]; decide) hclear with rfl | hclear
    · exact ⟨s, s, hs, .single hend rfl rfl rfl⟩
    · exact ⟨s, m, hs, rfl, takes_node hend rfl rfl htakes, hclear⟩
  -- Names and commas.
  | parameters hname _ ih =>
    obtain ⟨hclear, hlast⟩ := ih hs.advance
    exact ⟨hclear.behind hname (by decide), fun _ => hlast (by rw [← upcoming_eq, hname]; decide)⟩
  | moreParameters hcomma hname _ ih =>
    obtain ⟨hclear, hlast⟩ := ih hs.advance.advance
    have hmore := hclear.behind hname (by decide)
    exact ⟨hmore.behind hcomma (by decide), fun _ => hlast (by rw [← upcoming_eq, hname]; decide)⟩
  -- A second part is read behind the first.
  | @expression p s ds t es u left e h h' ih₁ ih₂ =>
    have hleft := ih₁ hs
    obtain ⟨a, ha, hspans⟩ := hleft.spans left rfl
    obtain ⟨hclear, hspans', hfenced⟩ := ih₂ (hs.trans h.ahead) a (hs.trans ha) hspans hleft.fenced
    refine ⟨hleft.clear.trans hclear h'.seam_operators, ?_, hfenced⟩
    rintro _ ⟨⟩
    exact ⟨a, ha, hspans'⟩
  | @operators_step p s ds t es u left next e hp h h' ih₁ ih₂ =>
    intro a ha hleft hfenced
    have hk := Kind.mem_binary_of_lt_precedence hp
    have hother : (upcoming s).kind ≠ .semicolon := by
      intro hsemicolon
      rw [hsemicolon] at hk
      contradiction
    have hstep : Clear a (advance s) := hleft.clear.step rfl hother
      (.continues (List.mem_cons_of_mem _ hk))
    obtain ⟨hclear, hnext, hfenced'⟩ :=
      ih₁ hs.advance hk a ha hleft.first hstep hleft.takes hfenced
    obtain ⟨hclear', hspans, hfenced''⟩ := ih₂ (hs.advance.trans h.ahead) a ha hnext hfenced'
    exact ⟨(hclear.behind rfl hother).trans hclear' h'.seam_operators, hspans, hfenced''⟩
  | @value s ds t es u v w h h' ih₁ ih₂ =>
    have hfirst := ih₁ hs
    obtain ⟨hfenced, m, hclear, hseam, htakes⟩ := ih₂ (hs.trans h.ahead)
    exact ⟨hfenced hfirst.fenced, m, hfirst.clear.trans hclear hseam, htakes _ h.owns⟩
  | @lastValue_step s ds t es u v next w hopen hnext h h' ih₁ ih₂ =>
    have hexpression := ih₁ hs.advance
    obtain ⟨hfenced, m, hclear, hseam, htakes⟩ := ih₂ (hs.advance.trans h.ahead)
    have hstep : Clear s t :=
      hexpression.clear.behind rfl fun hsemicolon => hnext (Or.inl hsemicolon)
    refine ⟨fun _ => hfenced hexpression.fenced, m, hstep.trans hclear hseam,
      .other fun hsemicolon => hopen (Or.inl hsemicolon), fun l hlast => ?_⟩
    exact htakes l (h.owns.earlier hlast.suffix)
  | statements_step _ h _ ih₁ ih₂ => exact (ih₁ hs).append (ih₂ (hs.trans h.ahead).advance)

/-! ## By the indices of tokens -/

/-- **The semicolon at index `j` stands inside the text of a node**: strictly between the first of
the tokens that its nodes own, which is at index `i`, and the last one, at index `k`. -/
structure Crossing (source : String) (n : Node) (i j k : Nat) : Prop where
  first : (ownedBy n.nodes).head? = some (tokenAt source i)
  last : (ownedBy n.nodes).getLast? = some (tokenAt source k)
  before : i < j
  behind : j < k
  semicolon : (tokenAt source j).kind = .semicolon

/-- **The token at index `j` lies in a block** of the conditional or function that begins at index
`q`. -/
def InBlock (source : String) (q j : Nat) : Prop := ∃ p e b ds,
  OpensBlock ((TokenStream.ofSource source).skip q) ((TokenStream.ofSource source).skip p) ∧
    Run .block ((TokenStream.ofSource source).skip p) b ds ((TokenStream.ofSource source).skip e) ∧
      p < j ∧ j ≤ e

theorem current_skip (source : String) (m : Nat) :
    current ((TokenStream.ofSource source).skip m) = tokenAt source m :=
  TokenStream.current_skip source m

theorem advance_skip (root : TokenStream) (m : Nat) : advance (root.skip m) = root.skip (m + 1) :=
  root.advance_skip m

theorem iterate_skip (p m : Nat) : advance^[m] (root.skip p) = root.skip (p + m) := by
  have hskip : advance^[m] (root.skip p) = (root.skip p).skip m := TokenStream.iterate_advance _ m
  rw [hskip, TokenStream.skip, TokenStream.skip, List.drop_drop, TokenStream.skip]

/-- What is ahead of an index of a stream has an index that is no smaller. -/
theorem exists_skip_of_ahead {p : Nat} (h : Ahead (root.skip p) s) :
    ∃ m, p ≤ m ∧ s = root.skip m := by
  obtain ⟨m, rfl⟩ := h
  exact ⟨p + m, Nat.le_add_right p m, iterate_skip p m⟩

theorem ahead_skip {p m : Nat} (h : p ≤ m) : Ahead (root.skip p) (root.skip m) :=
  ⟨m - p, by rw [iterate_skip, Nat.add_sub_cancel' h]⟩

/-- A place before the end has one index. -/
theorem skip_inj {p m : Nat} (hp : p < root.ahead.length) (h : root.skip p = root.skip m) :
    p = m := by
  have hsize := congrArg TokenStream.size h
  simp only [TokenStream.size, TokenStream.skip, List.length_drop] at hsize
  omega

/-- Behind the last token there is the end token only. -/
theorem lt_length_of_ne_eof {source : String} {i : Nat} (h : (tokenAt source i).kind ≠ .eof) :
    i < (TokenStream.ofSource source).ahead.length := by
  by_contra hi
  have hskip : ((TokenStream.ofSource source).skip i).ahead = [] :=
    List.drop_of_length_le (by omega)
  rw [← TokenStream.current_skip, TokenStream.current, hskip] at h
  exact h rfl

variable {source : String} {i j k : Nat}

/-- **A node that spans a stretch stands at the indices of the stretch**. -/
theorem Spans.indices (h : Spans a b n.nodes) (ha : Ahead (TokenStream.ofSource source) a)
    (hcrossing : Crossing source n i j k) : a = (TokenStream.ofSource source).skip i ∧
      ∃ e, b = (TokenStream.ofSource source).skip e ∧ k ≤ e := by
  have hstart : Ahead ((TokenStream.ofSource source).skip 0) a := ha
  obtain ⟨p, -, rfl⟩ := exists_skip_of_ahead hstart
  obtain ⟨e, -, rfl⟩ := exists_skip_of_ahead h.clear.ahead
  obtain ⟨ts, hts, hwritten⟩ := h.takes
  have hlength := congrArg List.length hts
  simp only [TokenStream.skip, List.length_drop, List.length_append, List.length_tail] at hlength
  -- the tokens of the node are among those from index `p` on
  have hindex : ∀ m, tokenAt source m ∈ ownedBy n.nodes → m < p + ts.length ∧
      p < (TokenStream.ofSource source).ahead.length := by
    intro m hm
    obtain ⟨r, hr, hget⟩ := List.mem_iff_getElem.mp (hwritten.owned.subset hm)
    have hat : (TokenStream.ofSource source).ahead[p + r]? = some (tokenAt source m) := by
      rw [← List.getElem?_drop, ← hget, ← List.getElem?_eq_getElem hr]
      exact (congrArg (·[r]?) hts).trans (List.getElem?_append_left hr)
    obtain ⟨hlt, hat⟩ := List.getElem?_eq_some_iff.mp hat
    rw [index_eq hlt ((tokenAt_of_lt_ahead hlt).trans hat)]
    omega
  obtain ⟨-, hp⟩ := hindex i (List.mem_of_mem_head? hcrossing.first)
  obtain ⟨hk, -⟩ := hindex k (List.mem_of_mem_getLast? hcrossing.last)
  have hfirst : tokenAt source p = tokenAt source i := by
    rw [← current_skip]
    exact Option.some.inj (h.first.symm.trans hcrossing.first)
  exact ⟨by rw [index_eq hp hfirst], e, rfl, by omega⟩

/-- **A semicolon inside the text of an operator with its operands or of a statement with a value
closes neither.**  An operand is missing there, directly behind an operator or a parenthesis, and
directly behind it the expression goes on with a binary operator or a closing parenthesis; or it
lies in a block that a conditional or function opens there. -/
theorem Crossing.atOperand_or_inBlock (hn : n ∈ (parse source).1.nodes) (hbounded : n.Bounded)
    (h : Crossing source n i j k) :
    ((tokenAt source (j - 1)).kind ∈ Kind.beforeOperand ∧
      (tokenAt source (j + 1)).kind ∈ Kind.afterOperand) ∨
    ∃ q, i ≤ q ∧ InBlock source q j := by
  obtain ⟨t, hrun⟩ := parse_eq_iff_run.mp (rfl : parse source = ((parse source).1, _))
  obtain ⟨a, b, ha, hspans⟩ := hrun.keeps (.refl _) n hn hbounded
  obtain ⟨rfl, e, rfl, hk⟩ := hspans.indices ha h
  have hj : j < (TokenStream.ofSource source).ahead.length :=
    lt_length_of_ne_eof (by rw [h.semicolon]; decide)
  have hbehind : Ahead (advance ((TokenStream.ofSource source).skip i))
      ((TokenStream.ofSource source).skip j) := by
    rw [advance_skip]
    exact ahead_skip h.before
  have hlt : j < e := Nat.lt_of_lt_of_le h.behind hk
  have hkind : (current ((TokenStream.ofSource source).skip j)).kind = .semicolon := by
    rw [current_skip]
    exact h.semicolon
  rcases hspans.clear.passed _ hbehind (ahead_skip (Nat.le_of_lt hlt)) hkind with
    ⟨hoperand, hseam⟩ | hsheltered
  · left
    constructor
    · obtain ⟨o, ho, hlead, hplace⟩ := hoperand
      obtain ⟨m, -, rfl⟩ := exists_skip_of_ahead ho
      rw [advance_skip] at hplace
      obtain rfl : j = m + 1 := skip_inj hj hplace
      rwa [current_skip] at hlead
    · cases hseam with
      | stays hplace => exact absurd (skip_inj hj hplace.symm) (Nat.ne_of_lt hlt)
      | continues hnext => rwa [upcoming_eq, advance_skip, current_skip] at hnext
      | other hother => exact absurd hkind hother
  · right
    obtain ⟨c, u, hc, hopens, v, ds, t, hblock, hinside, hend⟩ := hsheltered
    obtain ⟨q, hq, rfl⟩ := exists_skip_of_ahead hc
    obtain ⟨p, -, rfl⟩ := exists_skip_of_ahead hopens.ahead
    obtain ⟨f, hf, rfl⟩ := exists_skip_of_ahead hend
    rw [advance_skip] at hinside
    obtain ⟨m, hm, hplace⟩ := exists_skip_of_ahead hinside
    obtain rfl : j = m := skip_inj hj hplace
    exact ⟨q, hq, p, f, v, ds, hopens, hblock, hm, hf⟩

/-! ## A semicolon in a block whose braces do not show it -/

/-- A text with a function in whose body a return statement lacks its semicolon. -/
def openReturn : String := "return fn() \x7b return \x7d ; \x7d 7"

/-- The tokens of that text. -/
def openReturnTokens : TokenStream where
  ahead := [⟨.returnWord, "return", ⟨1, 1⟩⟩, ⟨.functionWord, "fn", ⟨1, 8⟩⟩,
    ⟨.lparen, "(", ⟨1, 10⟩⟩, ⟨.rparen, ")", ⟨1, 11⟩⟩, ⟨.lbrace, "\x7b", ⟨1, 13⟩⟩,
    ⟨.returnWord, "return", ⟨1, 15⟩⟩, ⟨.rbrace, "\x7d", ⟨1, 22⟩⟩, ⟨.semicolon, ";", ⟨1, 24⟩⟩,
    ⟨.rbrace, "\x7d", ⟨1, 26⟩⟩, ⟨.int, "7", ⟨1, 28⟩⟩]
  stop := ⟨1, 29⟩

/-- The tree of that text. -/
def openReturnStatement : Stmt :=
  .returning ⟨.returnWord, "return", ⟨1, 1⟩⟩ (some (.integer ⟨.int, "7", ⟨1, 28⟩⟩ 7))

/-- The inner return statement takes the closing brace and the semicolon behind it, so the body
ends at the second closing brace; of the function and the number the outer one keeps the last. -/
theorem parse_openReturn :
    parse openReturn = (⟨[openReturnStatement]⟩, [.noExpression .rbrace]) := by
  have hstream : TokenStream.ofSource openReturn = openReturnTokens := by decide +kernel
  have hinner : Run .statement (openReturnTokens.skip 5)
      (.returning ⟨.returnWord, "return", ⟨1, 15⟩⟩ none) [.noExpression .rbrace]
        (openReturnTokens.skip 7) :=
    .statement_returning rfl (.returning (.value (s := openReturnTokens.skip 6)
      (.expression_missing (.operand_missing rfl)) (.lastValue_closed (by decide) (Or.inl rfl))))
  have hbody : Run (.statements .rbrace) (openReturnTokens.skip 5)
      [.returning ⟨.returnWord, "return", ⟨1, 15⟩⟩ none] [.noExpression .rbrace]
        (openReturnTokens.skip 8) :=
    .statements_step (by decide) hinner (.statements_stop (Or.inl rfl))
  have hfunction : Run .function (openReturnTokens.skip 1) (some _) [.noExpression .rbrace]
      (openReturnTokens.skip 8) :=
    .function (s := openReturnTokens.skip 1) rfl (.parameters_none rfl)
      (.braced rfl (.block hbody))
  have hnumber : Run (.expression .lowest) (openReturnTokens.skip 9)
      (some (.integer ⟨.int, "7", ⟨1, 28⟩⟩ 7)) [] (openReturnTokens.skip 9) :=
    .expression (.integer rfl (by decide)) (.operators_stop (by decide))
  have hlast : ∀ v, Run (.lastValue v) (openReturnTokens.skip 8)
      (some (.integer ⟨.int, "7", ⟨1, 28⟩⟩ 7)) [] (openReturnTokens.skip 10) := fun v =>
    .lastValue_step (s := openReturnTokens.skip 8) (by decide) (by decide) hnumber
      (.lastValue_closed (s := openReturnTokens.skip 9) (by decide) (Or.inr rfl))
  have hvalue : Run .value (openReturnTokens.skip 1)
      (some (.integer ⟨.int, "7", ⟨1, 28⟩⟩ 7)) [.noExpression .rbrace]
        (openReturnTokens.skip 10) :=
    .value (.expression (.operand_function rfl hfunction) (.operators_stop (by decide)))
      (hlast _)
  rw [parse_eq_iff_run, hstream]
  exact ⟨openReturnTokens.skip 11, .statements_step (s := openReturnTokens) (by decide)
    (.statement_returning rfl (.returning hvalue)) (.statements_stop (Or.inr rfl))⟩

theorem mem_openReturn : .statement openReturnStatement ∈ (parse openReturn).1.nodes := by
  rw [parse_openReturn]
  exact List.mem_cons_self

/-- The semicolon stands before the number, which the statement owns. -/
theorem crossing_openReturn : Crossing openReturn (.statement openReturnStatement) 0 7 9 where
  first := by decide +kernel
  last := by decide +kernel
  before := by decide
  behind := by decide
  semicolon := by decide +kernel

/-- **Braces do not tell whether a semicolon lies in a block**: the one in this text has as many
opening as closing braces before it, it stands inside the text of the outer statement, and that
statement has no block. -/
theorem not_barred_openReturn : ¬ ∀ n ∈ (parse openReturn).1.nodes, n.Bounded →
    (∀ m ∈ n.nodes, m.list? = none) → ∀ i j k, Crossing openReturn n i j k →
      nesting (((tokenize openReturn).take j).drop i) ≠ 0 := by
  intro hbarred
  have hblocks : ∀ m ∈ (Node.statement openReturnStatement).nodes, m.list? = none := by
    rintro m (_ | ⟨_, _ | ⟨_, ⟨⟩⟩⟩) <;> rfl
  exact hbarred _ mem_openReturn trivial hblocks 0 7 9 crossing_openReturn (by decide +kernel)

/-- It lies in the body of the function, which begins behind the outer keyword. -/
theorem inBlock_openReturn : ∃ n ∈ (parse openReturn).1.nodes, n.Bounded ∧
    Crossing openReturn n 0 7 9 ∧ ∃ q, 0 ≤ q ∧ InBlock openReturn q 7 := by
  have hbrace : (tokenAt openReturn 6).kind ∉ Kind.beforeOperand := by
    have hkind : (tokenAt openReturn 6).kind = .rbrace := by decide +kernel
    rw [hkind]
    decide
  refine ⟨_, mem_openReturn, trivial, crossing_openReturn, ?_⟩
  exact (Crossing.atOperand_or_inBlock mem_openReturn trivial crossing_openReturn).resolve_left
    fun hoperand => hbrace hoperand.1

end Parser
end MonkeyFrontend
