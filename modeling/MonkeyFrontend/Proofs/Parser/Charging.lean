import MonkeyFrontend.Proofs.Parser.Exact

/-! # Diagnostics are charged to tokens

A report can be charged to a token: a missing expression and a bad number to the token at which
they are found, an unmet expectation to the token that opens its construct.  No token is charged
twice, so some reports of a run are never more than the tokens that can be charged for them
(`Levy.due_le`).

The induction is on runs.  A call that begins with a token may charge this token and all those
behind it, up to the one on which it ends; what goes on behind a token that was read before may
charge the tokens behind it only.  The parts of a conditional and of a function are read behind
their keyword: the one expectation of theirs that can fail is a fine, which the keyword pays.
-/
namespace MonkeyFrontend

open TokenSupply

/-- The kinds of the tokens that open a construct with expectations. -/
def Kind.opens : Kind → Bool
  | .letWord | .ifWord | .functionWord | .lparen => true
  | _ => false

theorem Kind.ne_eof_of_opens {k : Kind} (h : k.opens) : k ≠ .eof := by
  rintro rfl
  contradiction

/-- Some diagnostics and the tokens that are charged for them.  A token at which something can
be found pays for that, and a token that opens a construct pays the fine for an expectation. -/
structure Levy where
  counted : Diagnostic → Bool
  charged : Token → Bool
  fine : Nat
  missing : ∀ t : Token, t.kind.startsExpression = false →
    [Diagnostic.noExpression t.kind].countP counted ≤ [t].countP charged
  number : ∀ t : Token, t.kind = .int → Parser.integerValue? t.literal = none →
    [Diagnostic.badInteger t.literal].countP counted ≤ [t].countP charged
  unmet : ∀ wanted found, [Diagnostic.unexpected wanted found].countP counted ≤ fine
  opening : ∀ t : Token, t.kind.opens → fine ≤ [t].countP charged

namespace TokenStream

variable (s : TokenStream)

/-- The tokens behind the current one. -/
def behind : List Token := s.toList.tail

theorem toList_eq : s.toList = TokenSupply.current s :: s.behind := by
  obtain ⟨ahead, stop⟩ := s
  cases ahead <;> rfl

variable {s}

/-- Moving on from any other token than the last leads to the tokens behind it. -/
theorem toList_advance (h : s.ahead ≠ []) : (TokenSupply.advance s).toList = s.behind := by
  obtain ⟨ahead, stop⟩ := s
  cases ahead with
  | nil => exact absurd rfl h
  | cons t ts => rfl

theorem ahead_ne_nil_of_upcoming (h : (TokenSupply.upcoming s).kind ≠ .eof) : s.ahead ≠ [] := by
  rintro hnil
  apply ahead_ne_nil h
  show s.ahead.tail = []
  rw [hnil, List.tail_nil]

/-- The end token stays. -/
theorem advance_of_nil (h : s.ahead = []) : TokenSupply.advance s = s := by
  obtain ⟨ahead, stop⟩ := s
  obtain rfl : ahead = [] := h
  rfl

theorem toList_advance_sublist (s : TokenStream) :
    List.Sublist (TokenSupply.advance s).toList s.toList := by
  by_cases h : s.ahead = []
  · exact (congrArg toList (advance_of_nil h)) ▸ List.Sublist.refl _
  · rw [toList_advance h, toList_eq]
    exact List.sublist_cons_self _ _

theorem toList_sublist {s t : TokenStream} (h : Ahead s t) : List.Sublist t.toList s.toList :=
  h.preserves (P := fun u => List.Sublist u.toList s.toList)
    (fun u hu => (toList_advance_sublist u).trans hu) (List.Sublist.refl _)

/-- The tokens that are met ahead are tokens of the stream. -/
theorem current_mem {s t : TokenStream} (h : Ahead s t) : TokenSupply.current t ∈ s.toList := by
  apply (toList_sublist h).subset
  rw [toList_eq]
  exact List.mem_cons_self

theorem behind_advance_sublist (s : TokenStream) :
    List.Sublist (TokenSupply.advance s).behind s.behind := (toList_advance_sublist s).tail

end TokenStream

namespace Levy

variable (L : Levy)

/-- How many of the diagnostics are to be paid for. -/
def due (ds : List Diagnostic) : Nat := ds.countP L.counted

/-- How many of the tokens can pay. -/
def funds (ts : List Token) : Nat := ts.countP L.charged

/-- What a missing result may have cost. -/
def penalty {α : Type} (v : Option α) : Nat := if v.isNone then L.fine else 0

theorem due_append (ds es : List Diagnostic) : L.due (ds ++ es) = L.due ds + L.due es :=
  List.countP_append

/-- What a first part leaves, a second may charge. -/
theorem due_append_le {ds es : List Diagnostic} {m n k : Nat} (h : L.due ds + m ≤ k)
    (h' : L.due es + n ≤ m) : L.due (ds ++ es) + n ≤ k := by
  rw [due_append]
  omega

theorem penalty_le {α : Type} (v : Option α) : L.penalty v ≤ L.fine := by
  unfold penalty
  split <;> omega

theorem penalty_map {α β : Type} (f : α → β) (v : Option α) : L.penalty (v.map f) = L.penalty v := by
  cases v <;> rfl

/-! ## What the tokens of a stream can pay -/

/-- What a call at a token may charge. -/
def here (s : TokenStream) : Nat := L.funds s.toList

/-- What a call behind a token may charge. -/
def later (s : TokenStream) : Nat := L.funds s.behind

/-- What statements may charge, which do not begin at the end of the text. -/
def pending (s : TokenStream) : Nat := if (current s).kind = .eof then L.later s else L.here s

variable (s : TokenStream)

theorem here_eq : L.here s = [current s].countP L.charged + L.later s := by
  rw [here, TokenStream.toList_eq, ← List.singleton_append]
  exact List.countP_append

theorem later_le : L.later s ≤ L.here s := by
  rw [here_eq]
  exact Nat.le_add_left _ _

theorem here_advance_le : L.here (advance s) ≤ L.here s :=
  (TokenStream.toList_advance_sublist s).countP_le

theorem later_advance_le : L.later (advance s) ≤ L.later s :=
  (TokenStream.behind_advance_sublist s).countP_le

variable {s}

theorem here_advance (h : (current s).kind ≠ .eof ∨ (upcoming s).kind ≠ .eof) :
    L.here (advance s) = L.later s := by
  have hne : s.ahead ≠ [] :=
    h.elim TokenStream.ahead_ne_nil TokenStream.ahead_ne_nil_of_upcoming
  rw [here, later, TokenStream.toList_advance hne]

theorem here_advance_of_kind {k : Kind} (h : (upcoming s).kind = k) (hk : k ≠ .eof) :
    L.here (advance s) = L.later s := L.here_advance (Or.inr (h ▸ hk))

theorem pending_le (s : TokenStream) : L.pending s ≤ L.here s := by
  unfold pending
  split
  · exact L.later_le s
  · exact Nat.le_refl _

theorem later_le_pending (s : TokenStream) : L.later s ≤ L.pending s := by
  unfold pending
  split
  · exact Nat.le_refl _
  · exact L.later_le s

/-- Statements that begin behind a token charge no token before them, nor the end of the text. -/
theorem pending_advance_le (s : TokenStream) : L.pending (advance s) ≤ L.later s := by
  unfold pending
  split
  · exact L.later_advance_le s
  · rename_i h
    exact (L.here_advance (Or.inr h)).le

/-- An opening token pays the fine. -/
theorem fine_le (h : (current s).kind.opens) : L.fine + L.later s ≤ L.here s := by
  rw [here_eq]
  exact Nat.add_le_add_right (L.opening _ h) _

theorem due_unmet_le (wanted found : Kind) : L.due [.unexpected wanted found] ≤ L.fine :=
  L.unmet wanted found

/-! ## What a run charges -/

/-- What a call may charge: the tokens from its first one on, those behind its first one, or
those behind a token that opens it, besides a fine if the result is missing. -/
def Bounds : (c : Parser.Construct) → TokenStream → c.Value → Nat → Prop
  | .expression _, s, _, n | .operand, s, _, n | .unary, s, _, n | .binary _, s, _, n
  | .value, s, _, n | .expressionStatement, s, _, n | .statement, s, _, n
  | .returning, s, _, n => n ≤ L.here s
  | .grouped, s, _, n | .conditional, s, _, n | .function, s, _, n
  | .letting, s, _, n => (current s).kind.opens → n ≤ L.here s
  | .operators _ _, s, _, n | .lastValue _, s, _, n | .block, s, _, n => n ≤ L.later s
  | .statements _, s, _, n => n ≤ L.pending s
  | .branches _ _, s, v, n => n ≤ L.later s + L.penalty v
  | .alternative, s, v, n => n ≤ L.later s + L.penalty v
  | .braced, s, v, n => n ≤ L.later s + L.penalty v
  | .parameters, s, v, n | .moreParameters, s, v, n => n ≤ L.later s + L.penalty v

end Levy

namespace Parser

/-- **No run charges more than the tokens it takes can pay.**  What is left behind the token on
which the run ends is not touched. -/
theorem Run.bounds (L : Levy) {c : Construct} {s t : TokenStream} {v : c.Value}
    {ds : List Diagnostic} (h : Run c s v ds t) : L.Bounds c s v (L.due ds + L.later t) := by
  induction h with
  -- Nothing is reported.
  | @identifier s _ | @integer s _ _ _ | @boolean s _ =>
    show 0 + L.later s ≤ L.here s
    have := L.later_le s
    omega
  | operators_stop | lastValue_stop => exact (Nat.zero_add _).le
  | @statements_stop k s _ =>
    show 0 + L.later s ≤ L.pending s
    have := L.later_le_pending s
    omega
  | @alternative_absent s _ => exact (Nat.zero_add _).le
  | @lastValue_closed s _ _ _ =>
    show 0 + L.later (advance s) ≤ L.later s
    have := L.later_advance_le s
    omega
  | @parameters_none s _ | @moreParameters_end s _ =>
    show 0 + L.later (advance s) ≤ L.later s + 0
    have := L.later_advance_le s
    omega
  -- What is reported is found at the first token.
  | @integer_bad s hk hn =>
    show L.due _ + L.later s ≤ L.here s
    rw [L.here_eq]
    exact Nat.add_le_add_right (L.number _ hk hn) _
  | @operand_missing s hk =>
    show L.due _ + L.later s ≤ L.here s
    rw [L.here_eq]
    exact Nat.add_le_add_right (L.missing _ hk) _
  -- An expectation fails: the token that opens the construct pays, or the one before it will.
  | @conditional_bare s _ | @function_bare s _ | @letting_bare s _ =>
    intro hopens
    have hfine := L.fine_le hopens
    exact (Nat.add_le_add_right (L.due_unmet_le _ _) _).trans hfine
  | @letting_open s _ _ =>
    intro hopens
    have hfine := L.fine_le hopens
    have hnext := L.later_advance_le s
    have hdue := L.due_unmet_le .assign (upcoming (advance s)).kind
    omega
  | @braced_missing s _ | @parameters_bare s _ _ | @moreParameters_open s _ _ =>
    show L.due _ + L.later s ≤ L.later s + L.fine
    rw [Nat.add_comm]
    exact Nat.add_le_add_left (L.due_unmet_le _ _) _
  | @moreParameters_bare s _ _ =>
    show L.due _ + L.later (advance s) ≤ L.later s + L.fine
    have hnext := L.later_advance_le s
    have hdue := L.due_unmet_le .ident (upcoming (advance s)).kind
    omega
  -- The result is that of one part.
  | expression_missing _ ih | branches_missing _ ih | operand_unary _ _ ih
  | statement_returning _ _ ih | statement_expression _ _ _ ih | expressionStatement _ _ ih =>
    exact ih
  | operand_grouped hk _ ih | operand_conditional hk _ ih | operand_function hk _ ih
  | statement_letting hk _ ih => exact ih (by rw [hk]; rfl)
  | @expressionStatement_closed s ds t _ _ _ ih =>
    have hpart : L.due ds + L.later t ≤ L.here s := ih
    show L.due ds + L.later (advance t) ≤ L.here s
    have := L.later_advance_le t
    omega
  | binary _ ih | unary _ ih | returning _ ih => exact ih.trans (L.here_advance_le _)
  | block _ ih => exact ih.trans (L.pending_advance_le _)
  | @braced s ds t b _ _ ih => exact ih.trans (L.later_advance_le s)
  | @alternative s ds t b _ _ ih =>
    have hpart : L.due ds + L.later t ≤ L.later (advance s) + L.penalty b := ih
    show L.due ds + L.later t ≤ L.later s + L.penalty (b.map some)
    have hnext := L.later_advance_le s
    rw [L.penalty_map]
    omega
  | @grouped s ds t v _ _ ih =>
    intro hopens
    have hpart : L.due ds + L.later t ≤ L.here (advance s) := ih
    have hnext := L.here_advance_le s
    have hlast := L.later_advance_le t
    omega
  | @grouped_open s ds t v _ _ ih =>
    intro hopens
    have hpart : L.due ds + L.later t ≤ L.here (advance s) := ih
    have hfine := L.fine_le hopens
    have hdue := L.due_unmet_le .rparen (upcoming t).kind
    rw [L.here_advance (Or.inl (Kind.ne_eof_of_opens hopens))] at hpart
    rw [L.due_append]
    omega
  | @conditional_open s ds t c hparen _ _ ih =>
    intro hopens
    have hpart : L.due ds + L.later t ≤ L.here (advance (advance s)) := ih
    have hfine := L.fine_le hopens
    have hnext := L.here_advance_le (advance s)
    have hdue := L.due_unmet_le .rparen (upcoming t).kind
    rw [L.here_advance_of_kind hparen nofun] at hnext
    rw [L.due_append]
    omega
  | @conditional s ds t es u c v hparen _ _ _ ih₁ ih₂ =>
    intro hopens
    have hfirst : L.due ds + L.later t ≤ L.here (advance (advance s)) := ih₁
    have hsecond : L.due es + L.later u ≤ L.later (advance t) + L.penalty v := ih₂
    have hfine := L.fine_le hopens
    have hnext := L.here_advance_le (advance s)
    have hmid := L.later_advance_le t
    have hpenalty := L.penalty_le v
    rw [L.here_advance_of_kind hparen nofun] at hnext
    rw [L.due_append]
    omega
  | @function_open s ds t _ _ ih =>
    intro hopens
    have hpart : L.due ds + L.later t ≤ L.later (advance s) + L.fine := ih
    have hfine := L.fine_le hopens
    have hnext := L.later_advance_le s
    omega
  | @function s ds t es u ps b _ _ _ ih₁ ih₂ =>
    intro hopens
    have hfirst : L.due ds + L.later t ≤ L.later (advance s) + 0 := ih₁
    have hsecond : L.due es + L.later u ≤ L.later t + L.penalty b := ih₂
    have hfine := L.fine_le hopens
    have hnext := L.later_advance_le s
    have hpenalty := L.penalty_le b
    rw [L.due_append]
    omega
  | @letting s ds t v _ _ _ ih =>
    intro hopens
    have hpart : L.due ds + L.later t ≤ L.here (advance (advance (advance s))) := ih
    have hnext := L.here_advance_le (advance (advance s))
    have hmid := L.here_advance_le (advance s)
    have hfirst := L.here_advance_le s
    show L.due ds + L.later t ≤ L.here s
    omega
  | @parameters s ds t ps _ _ ih =>
    have hpart : L.due ds + L.later t ≤ L.later (advance s) + L.penalty ps := ih
    show L.due ds + L.later t ≤ L.later s + L.penalty (ps.map _)
    have hnext := L.later_advance_le s
    rw [L.penalty_map]
    omega
  | @moreParameters s ds t ps _ _ _ ih =>
    have hpart : L.due ds + L.later t ≤ L.later (advance (advance s)) + L.penalty ps := ih
    show L.due ds + L.later t ≤ L.later s + L.penalty (ps.map _)
    have hnext := L.later_advance_le (advance s)
    have hfirst := L.later_advance_le s
    rw [L.penalty_map]
    omega
  -- A second part is read behind the first.
  | expression _ _ ih₁ ih₂ | value _ _ ih₁ ih₂ => exact L.due_append_le ih₁ ih₂
  | operators_step hp _ _ ih₁ ih₂ =>
    apply L.due_append_le (ih₁.trans _) ih₂
    exact (L.here_advance (Or.inr (Kind.ne_eof_of_lt_precedence hp))).le
  | lastValue_step hend _ _ _ ih₁ ih₂ =>
    apply L.due_append_le (ih₁.trans _) ih₂
    exact (L.here_advance (Or.inl fun heof => hend (Or.inr heof))).le
  | @statements_step k s ds t es u x xs hend _ _ ih₁ ih₂ =>
    -- the end of the text begins no statement, so it stays for the one that reaches it
    have hstart : L.pending s = L.here s := if_neg fun heof => hend (Or.inr heof)
    exact L.due_append_le (ih₁.trans hstart.ge) (ih₂.trans (L.pending_advance_le t))
  | @branches k s ds t es u c b a _ _ ih₁ ih₂ =>
    have hfirst : L.due ds + L.later t ≤ L.later s + 0 := ih₁
    have hsecond : L.due es + L.later u ≤ L.later t + L.penalty a := ih₂
    show L.due (ds ++ es) + L.later u ≤ L.later s + L.penalty (a.map _)
    rw [L.due_append, L.penalty_map]
    omega

end Parser

/-- **The diagnostics of a text that are to be paid for are at most as many as its tokens that
can pay.** -/
theorem Levy.due_le (L : Levy) {source : String} {p : Program} {ds : List Diagnostic}
    (h : Parser.parse source = (p, ds)) : L.due ds ≤ L.funds (tokenize source) := by
  obtain ⟨t, hrun⟩ := Parser.parse_eq_iff_run.mp h
  have hbound : L.due ds + L.later t ≤ L.pending _ := hrun.bounds L
  have hstart := L.pending_le (TokenStream.ofSource source)
  show L.due ds ≤ L.here (TokenStream.ofSource source)
  omega

end MonkeyFrontend
