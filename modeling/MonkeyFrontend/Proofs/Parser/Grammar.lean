import MonkeyFrontend.Proofs.Text.Decimal
import MonkeyFrontend.Parser.Descent

/-! # The grammar

Which tokens form a program and which tree they form, said without the parser.  Binary
operators have four levels, each with its operands on the next one, and associate to the
left; behind a prefix operator stands an operand of the fifth level.

`Derives x ts v rest` says that the tokens `ts` begin with a phrase `x` whose tree is `v`, and
that the tokens `rest` follow it.  What follows is part of the statement because a block and
the value of a let or return statement may end with the text, and because no expression that
forms a statement or a value is directly followed by a minus sign: that sign continues it.
-/
namespace MonkeyFrontend

namespace Grammar

/-- The binary operators of a level, the first level being the loosest. -/
def operators : Nat → List Kind
  | 1 => [.eq, .notEq]
  | 2 => [.lt, .gt]
  | 3 => [.plus, .minus]
  | 4 => [.asterisk, .slash]
  | _ => []

/-- What the tokens of a program are made of. -/
inductive Phrase where
  | expression (level : Nat)
  /-- The names of a function up to its closing parenthesis. -/
  | parameters
  /-- The names after one of them. -/
  | moreParameters
  /-- The alternative of a conditional, if it has one. -/
  | alternative
  | block
  | statements
  | statement
  /-- The expressions of a let or return statement, the last of which counts. -/
  | values

/-- The tree of a phrase. -/
abbrev Phrase.Tree : Phrase → Type
  | expression _ | values => Expr
  | parameters | moreParameters => List Identifier
  | alternative => Option Block
  | block => Block
  | statements => List Stmt
  | statement => Stmt

/-- Whether no minus sign comes next. -/
def NoMinus (rest : List Token) : Prop := ∀ t ∈ rest.head?, t.kind ≠ .minus

/-- **The grammar.**  Each rule is one production; groupings leave no node, and each node
keeps the token that introduces it. -/
inductive Derives : (x : Phrase) → List Token → x.Tree → List Token → Prop where
  | tighter {k ts rest} {e : Expr} : 1 ≤ k → k ≤ 4 →
      Derives (.expression (k + 1)) ts e rest → Derives (.expression k) ts e rest
  | binary {k ts mid rest} {l r : Expr} {o : Token} : o.kind ∈ operators k →
      Derives (.expression k) ts l (o :: mid) → Derives (.expression (k + 1)) mid r rest →
      Derives (.expression k) ts (.binary o l o.literal (some r)) rest
  | unary {ts rest} {e : Expr} {o : Token} : o.kind = .minus ∨ o.kind = .bang →
      Derives (.expression 5) ts e rest →
      Derives (.expression 5) (o :: ts) (.unary o o.literal (some e)) rest
  | identifier {rest} {t : Token} : t.kind = .ident →
      Derives (.expression 5) (t :: rest) (.identifier ⟨t, t.literal⟩) rest
  | integer {rest} {t : Token} : t.kind = .int → t.literal.length ≤ 4300 →
      Derives (.expression 5) (t :: rest) (.integer t (decimalValue t.literal)) rest
  | boolean {rest} {t : Token} : t.kind = .trueWord ∨ t.kind = .falseWord →
      Derives (.expression 5) (t :: rest) (.boolean t (t.kind == .trueWord)) rest
  | grouped {ts rest} {e : Expr} {l r : Token} : l.kind = .lparen →
      Derives (.expression 1) ts e (r :: rest) → r.kind = .rparen →
      Derives (.expression 5) (l :: ts) e rest
  | conditional {ts ts' mid rest} {c : Expr} {b : Block} {a : Option Block} {t l r : Token} :
      t.kind = .ifWord → l.kind = .lparen → Derives (.expression 1) ts c (r :: ts') →
      r.kind = .rparen → Derives .block ts' b mid → Derives .alternative mid a rest →
      Derives (.expression 5) (t :: l :: ts) (.conditional t (some c) b a) rest
  | function {ts mid rest} {ps : List Identifier} {b : Block} {t l : Token} :
      t.kind = .functionWord → l.kind = .lparen → Derives .parameters ts ps mid →
      Derives .block mid b rest → Derives (.expression 5) (t :: l :: ts) (.function t ps b) rest
  | no_parameters {rest} {r : Token} : r.kind = .rparen →
      Derives .parameters (r :: rest) [] rest
  | parameters {ts rest} {ps : List Identifier} {i : Token} : i.kind = .ident →
      Derives .moreParameters ts ps rest →
      Derives .parameters (i :: ts) (⟨i, i.literal⟩ :: ps) rest
  | last_parameter {rest} {r : Token} : r.kind = .rparen →
      Derives .moreParameters (r :: rest) [] rest
  | more_parameters {ts rest} {ps : List Identifier} {c i : Token} : c.kind = .comma →
      i.kind = .ident → Derives .moreParameters ts ps rest →
      Derives .moreParameters (c :: i :: ts) (⟨i, i.literal⟩ :: ps) rest
  | no_alternative {rest} : Derives .alternative rest none rest
  | alternative {ts rest} {b : Block} {t : Token} : t.kind = .elseWord →
      Derives .block ts b rest → Derives .alternative (t :: ts) (some b) rest
  | block_closed {ts rest} {ss : List Stmt} {l r : Token} : l.kind = .lbrace →
      Derives .statements ts ss (r :: rest) → r.kind = .rbrace →
      Derives .block (l :: ts) (.mk l ss) rest
  | block_end {ts} {ss : List Stmt} {l : Token} : l.kind = .lbrace →
      Derives .statements ts ss [] → Derives .block (l :: ts) (.mk l ss) []
  | no_statements {rest} : Derives .statements rest [] rest
  | statements {ts mid rest} {s : Stmt} {ss : List Stmt} : Derives .statement ts s mid →
      Derives .statements mid ss rest → Derives .statements ts (s :: ss) rest
  | letting_closed {ts rest} {e : Expr} {t i a s : Token} : t.kind = .letWord →
      i.kind = .ident → a.kind = .assign → Derives .values ts e (s :: rest) →
      s.kind = .semicolon →
      Derives .statement (t :: i :: a :: ts) (.letting t (some ⟨i, i.literal⟩) (some e)) rest
  | letting_end {ts} {e : Expr} {t i a : Token} : t.kind = .letWord → i.kind = .ident →
      a.kind = .assign → Derives .values ts e [] →
      Derives .statement (t :: i :: a :: ts) (.letting t (some ⟨i, i.literal⟩) (some e)) []
  | returning_closed {ts rest} {e : Expr} {t s : Token} : t.kind = .returnWord →
      Derives .values ts e (s :: rest) → s.kind = .semicolon →
      Derives .statement (t :: ts) (.returning t (some e)) rest
  | returning_end {ts} {e : Expr} {t : Token} : t.kind = .returnWord →
      Derives .values ts e [] → Derives .statement (t :: ts) (.returning t (some e)) []
  | expression_closed {ts rest} {e : Expr} {t s : Token} :
      Derives (.expression 1) (t :: ts) e (s :: rest) → s.kind = .semicolon →
      Derives .statement (t :: ts) (.expression t (some e)) rest
  | expression {ts rest} {e : Expr} {t : Token} : Derives (.expression 1) (t :: ts) e rest →
      NoMinus rest → Derives .statement (t :: ts) (.expression t (some e)) rest
  | value {ts rest} {e : Expr} : Derives (.expression 1) ts e rest → NoMinus rest →
      Derives .values ts e rest
  | values {ts mid rest} {e v : Expr} : Derives (.expression 1) ts e mid → NoMinus mid →
      Derives .values mid v rest → Derives .values ts v rest

/-- The tokens of a program, from the first to the last, and its tree. -/
def IsProgram (ts : List Token) (p : Program) : Prop := Derives .statements ts p.statements []

/-! ## Levels and precedences -/

theorem rank_precedence_le (k : Kind) : k.precedence.rank ≤ 4 := by cases k <;> decide

/-- The operators of a level are the kinds with the precedence of that level. -/
theorem mem_operators {k : Kind} {n : Nat} :
    k ∈ operators n ↔ n ≠ 0 ∧ k.precedence.rank = n := by
  match n with
  | 0 => simp [operators]
  | 1 | 2 | 3 | 4 => cases k <;> decide
  | n + 5 =>
    have hrank := rank_precedence_le k
    simp only [operators, List.not_mem_nil, false_iff]
    omega

/-- An expression of one level is one of each looser level. -/
theorem Derives.looser {j k : Nat} {ts rest : List Token} {e : Expr}
    (h : Derives (.expression k) ts e rest) (hj : 1 ≤ j) (hjk : j ≤ k) (hk : k ≤ 5) :
    Derives (.expression j) ts e rest := by
  induction hjk with
  | refl => exact h
  | @step k hjk ih =>
    have hjk : j ≤ k := hjk
    exact ih (.tighter (by omega) (by omega) h) (by omega)

/-! ## The first token of a phrase -/

/-- Whether a kind can begin a statement. -/
def StartsStatement (k : Kind) : Prop := k.startsExpression ∨ k = .letWord ∨ k = .returnWord

instance : DecidablePred StartsStatement := fun k =>
  inferInstanceAs (Decidable (k.startsExpression ∨ k = .letWord ∨ k = .returnWord))

/-- Which tokens can begin a phrase. -/
def Phrase.Begins (ts : List Token) : Phrase → Prop
  | expression _ | values => ∃ t ∈ ts.head?, t.kind.startsExpression
  | statement => ∃ t ∈ ts.head?, StartsStatement t.kind
  | block => ∃ t ∈ ts.head?, t.kind = .lbrace
  | _ => True

theorem Derives.begins {x : Phrase} {ts rest : List Token} {v : x.Tree}
    (h : Derives x ts v rest) : x.Begins ts := by
  induction h with
  | tighter _ _ _ ih | binary _ _ _ ih _ | value _ _ ih | values _ _ _ ih _ => exact ih
  | unary ho _ => exact ⟨_, rfl, by rcases ho with ho | ho <;> simp [ho, Kind.startsExpression]⟩
  | identifier ht | integer ht _ | conditional ht | function ht | grouped ht =>
    exact ⟨_, rfl, by simp [ht, Kind.startsExpression]⟩
  | boolean ht => exact ⟨_, rfl, by rcases ht with ht | ht <;> simp [ht, Kind.startsExpression]⟩
  | block_closed hl | block_end hl => exact ⟨_, rfl, hl⟩
  | letting_closed ht | letting_end ht => exact ⟨_, rfl, Or.inr (Or.inl ht)⟩
  | returning_closed ht | returning_end ht => exact ⟨_, rfl, Or.inr (Or.inr ht)⟩
  | expression_closed _ _ ih | expression _ _ ih =>
    obtain ⟨t, ht, hstart⟩ := ih
    exact ⟨t, ht, Or.inl hstart⟩
  | _ => trivial

section Suffix

variable {t : Token} {ts us : List Token}

private theorem suffix_behind (h : ts <:+ us) : ts <:+ t :: us := h.trans (List.suffix_cons t us)

private theorem suffix_tail (h : t :: ts <:+ us) : ts <:+ us := (List.suffix_cons t ts).trans h

/-- What follows a phrase is the end of what it begins. -/
theorem Derives.suffix {x : Phrase} {ts rest : List Token} {v : x.Tree}
    (h : Derives x ts v rest) : rest <:+ ts := by
  induction h with
  | tighter _ _ _ ih | value _ _ ih => exact ih
  | binary _ _ _ ih₁ ih₂ => exact ih₂.trans (suffix_tail ih₁)
  | values _ _ _ ih₁ ih₂ | statements _ _ ih₁ ih₂ => exact ih₂.trans ih₁
  | unary _ _ ih | parameters _ _ ih | alternative _ _ ih | block_end _ _ ih
  | returning_end _ _ ih => exact suffix_behind ih
  | identifier | integer | boolean | no_parameters | last_parameter => exact List.suffix_cons _ _
  | no_alternative | no_statements => exact List.suffix_rfl
  | grouped _ _ _ ih | block_closed _ _ _ ih | returning_closed _ _ _ ih =>
    exact suffix_behind (suffix_tail ih)
  | conditional _ _ _ _ _ _ ih₁ ih₂ ih₃ =>
    exact suffix_behind (suffix_behind (ih₃.trans (ih₂.trans (suffix_tail ih₁))))
  | function _ _ _ _ ih₁ ih₂ => exact suffix_behind (suffix_behind (ih₂.trans ih₁))
  | more_parameters _ _ _ ih => exact suffix_behind (suffix_behind ih)
  | letting_closed _ _ _ _ _ ih =>
    exact suffix_behind (suffix_behind (suffix_behind (suffix_tail ih)))
  | letting_end _ _ _ _ ih => exact suffix_behind (suffix_behind (suffix_behind ih))
  | expression_closed _ _ ih => exact suffix_tail ih
  | expression _ _ ih => exact ih

end Suffix

end Grammar
end MonkeyFrontend
