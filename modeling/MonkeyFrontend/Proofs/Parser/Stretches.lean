import MonkeyFrontend.Proofs.Parser.Call
import MonkeyFrontend.Proofs.Parser.Forward
import MonkeyFrontend.Proofs.Tree.Consistent

/-! # Stretches of tokens that pass no semicolon

From a place on, the parser comes to semicolons in two ways that do not close what it reads.  It
reads the blocks of the conditionals and functions that it meets, with all their statements, also
where the expression is given up later.  And it steps over an operator or an opening parenthesis
before it looks for the operand, which may be missing.  From there it goes on only if a binary
operator or a closing parenthesis comes next.

`Clear a b` says that there is no other semicolon behind the place `a` and up to the place `b`.
Clear stretches are put together from steps over single tokens and from whole blocks.  Where one
ends on a semicolon, nothing can be put behind it but what goes on behind an operand (`Seam`).
-/
namespace MonkeyFrontend

open TokenSupply

/-- The kinds of tokens behind which an operand is read. -/
def Kind.beforeOperand : List Kind :=
  [.lparen, .bang, .plus, .minus, .asterisk, .slash, .lt, .gt, .eq, .notEq]

/-- The kinds of tokens that go on with an expression behind an operand. -/
def Kind.afterOperand : List Kind :=
  [.rparen, .plus, .minus, .asterisk, .slash, .lt, .gt, .eq, .notEq]

variable {σ : Type} [TokenSupply σ] {a b c s t u x : σ}

/-! ## Places in order -/

namespace Ahead

/-- A place ahead is the same place, or it is ahead of the next one. -/
theorem eq_or_advance (h : Ahead s t) : t = s ∨ Ahead (TokenSupply.advance s) t := by
  obtain ⟨n, rfl⟩ := h
  cases n with
  | zero => exact Or.inl rfl
  | succ n => exact Or.inr ⟨n, rfl⟩

/-- Of two places ahead of a third one, one is ahead of the other. -/
theorem total (hs : Ahead u s) (ht : Ahead u t) : Ahead s t ∨ Ahead t s := by
  obtain ⟨m, rfl⟩ := hs
  obtain ⟨n, rfl⟩ := ht
  rcases Nat.le_total m n with hle | hle
  · exact Or.inl ⟨n - m, by rw [← Function.iterate_add_apply, Nat.sub_add_cancel hle]⟩
  · exact Or.inr ⟨m - n, by rw [← Function.iterate_add_apply, Nat.sub_add_cancel hle]⟩

theorem size_le (h : Ahead s t) : size t ≤ size s :=
  h.preserves (P := fun u => size u ≤ size s)
    (fun u hu => Nat.le_trans (size_advance_le u) hu) (Nat.le_refl _)

/-- Before the end of the text nothing comes again. -/
theorem not_back (h : Ahead (TokenSupply.advance s) t) (hend : (current t).kind ≠ .eof) :
    ¬ Ahead t s := by
  intro hback
  have hpos := size_pos t hend
  have hle := h.size_le
  have hle' := hback.size_le
  rw [size_advance] at hle
  omega

theorem antisymm (h : Ahead s t) (h' : Ahead t s) (hend : (current t).kind ≠ .eof) : t = s :=
  h.eq_or_advance.resolve_right fun hadvance => hadvance.not_back hend h'

end Ahead

namespace Parser

/-! ## Blocks of conditionals and functions -/

/-- The conditional that begins at `c` opens its first block at `u`. -/
def OpensFirst (c u : σ) : Prop :=
  (current c).kind = .ifWord ∧ (upcoming c).kind = .lparen ∧ ∃ v ds t,
    Run (.expression .lowest) (advance (advance c)) v ds t ∧ (upcoming t).kind = .rparen ∧
      (upcoming (advance t)).kind = .lbrace ∧ u = advance (advance t)

/-- **The conditional or function that begins at `c` opens a block at `u`**, whether or not it is
read to its end. -/
inductive OpensBlock (c : σ) : σ → Prop
  | consequence {u : σ} : OpensFirst c u → OpensBlock c u
  | alternative {u t : σ} {b : Block} {ds : List Diagnostic} : OpensFirst c u →
      Run .block u b ds t → (upcoming t).kind = .elseWord → (upcoming (advance t)).kind = .lbrace →
      OpensBlock c (advance (advance t))
  | body {t : σ} {ps : List Identifier} {ds : List Diagnostic} : (current c).kind = .functionWord →
      (upcoming c).kind = .lparen → Run .parameters (advance c) (some ps) ds t →
      (upcoming t).kind = .lbrace → OpensBlock c (advance t)

theorem OpensFirst.ahead (h : OpensFirst c u) : Ahead c u := by
  obtain ⟨-, -, v, ds, t, hrun, -, -, rfl⟩ := h
  exact hrun.ahead.of_advance.of_advance.advance.advance

theorem OpensBlock.ahead (h : OpensBlock c u) : Ahead c u := by
  cases h with
  | consequence hfirst => exact hfirst.ahead
  | alternative hfirst hrun _ _ => exact (hfirst.ahead.trans hrun.ahead).advance.advance
  | body _ _ hrun _ => exact hrun.ahead.of_advance.advance

/-- The place `x` lies in a block of a conditional or function that begins at `a` or behind it. -/
def Sheltered (a x : σ) : Prop := ∃ c u, Ahead a c ∧ OpensBlock c u ∧ ∃ b ds t,
  Run .block u b ds t ∧ Ahead (advance u) x ∧ Ahead x t

/-- The place `x` is directly behind a token at `a` or later behind which an operand is read. -/
def AtOperand (a x : σ) : Prop :=
  ∃ o, Ahead a o ∧ (current o).kind ∈ Kind.beforeOperand ∧ x = advance o

theorem Sheltered.earlier (h : Sheltered b x) (hab : Ahead a b) : Sheltered a x := by
  obtain ⟨c, u, hbc, hrest⟩ := h
  exact ⟨c, u, hab.trans hbc, hrest⟩

theorem AtOperand.earlier (h : AtOperand b x) (hab : Ahead a b) : AtOperand a x := by
  obtain ⟨o, hbo, hrest⟩ := h
  exact ⟨o, hab.trans hbo, hrest⟩

/-! ## Clear stretches -/

/-- **Whether reading may go on from `b` to `c`.**  From a semicolon it does so only with what goes
on behind an operand. -/
inductive Seam (b c : σ) : Prop
  | stays : c = b → Seam b c
  | continues : (upcoming b).kind ∈ Kind.afterOperand → Seam b c
  | other : (current b).kind ≠ .semicolon → Seam b c

theorem Seam.trans (h : Seam a b) (h' : Seam b c) : Seam a c := by
  cases h with
  | stays heq => exact heq ▸ h'
  | continues hnext => exact .continues hnext
  | other hother => exact .other hother

/-- **No semicolon behind `a` and up to `b` closes anything**: each is where an operand is missing
and the expression goes on, unless the stretch ends there, or it is in a block. -/
structure Clear (a b : σ) : Prop where
  ahead : Ahead a b
  passed : ∀ x, Ahead (advance a) x → Ahead x b → (current x).kind = .semicolon →
    (AtOperand a x ∧ Seam x b) ∨ Sheltered a x

namespace Clear

theorem refl (a : σ) : Clear a a where
  ahead := .refl a
  passed x hx hxa hkind := absurd hxa (hx.not_back (by rw [hkind]; nofun))

/-- What is clear so far goes on as long as the semicolons behind it are passed. -/
theorem extend (h : Clear a s) (hseam : Seam s t) (hst : Ahead s t)
    (hpassed : ∀ x, Ahead (advance s) x → Ahead x t → (current x).kind = .semicolon →
      (AtOperand a x ∧ Seam x t) ∨ Sheltered a x) : Clear a t where
  ahead := h.ahead.trans hst
  passed x hx hxt hkind := by
    have hearlier : Ahead x s → (AtOperand a x ∧ Seam x t) ∨ Sheltered a x := fun hxs =>
      (h.passed x hx hxs hkind).imp_left (·.imp_right (·.trans hseam))
    rcases hx.of_advance.total h.ahead with hxs | hsx
    · exact hearlier hxs
    · rcases hsx.eq_or_advance with rfl | hsx
      · exact hearlier (.refl x)
      · exact hpassed x hsx hxt hkind

theorem trans (h : Clear a b) (h' : Clear b c) (hseam : Seam b c) : Clear a c :=
  h.extend hseam h'.ahead fun x hx hxc hkind =>
    (h'.passed x hx hxc hkind).imp (·.imp_left (·.earlier h.ahead)) (·.earlier h.ahead)

/-- One token, if it is no semicolon or an operand is read there. -/
theorem next (hnext : (upcoming s).kind ≠ .semicolon ∨ (current s).kind ∈ Kind.beforeOperand) :
    Clear s (advance s) where
  ahead := .next s
  passed x hsx hxs hkind := by
    obtain rfl : x = advance s := hsx.antisymm hxs (by rw [hkind]; nofun)
    rcases hnext with hother | hoperand
    · rw [upcoming_eq] at hother
      exact absurd hkind hother
    · exact Or.inl ⟨⟨s, .refl s, hoperand, rfl⟩, .stays rfl⟩

/-- One token of a kind that is no semicolon. -/
theorem of_kind {k : Kind} (hk : (upcoming s).kind = k) (hne : k ≠ .semicolon) :
    Clear s (advance s) := next (Or.inl (hk ▸ hne))

/-- A stretch behind a token of a kind that is no semicolon. -/
theorem behind (h : Clear (advance s) t) {k : Kind} (hk : (upcoming s).kind = k)
    (hne : k ≠ .semicolon) : Clear s t :=
  (of_kind hk hne).trans h (.other (by rwa [← upcoming_eq, hk]))

/-- One more token of a kind that is no semicolon. -/
theorem step (h : Clear a s) {k : Kind} (hk : (upcoming s).kind = k) (hne : k ≠ .semicolon)
    (hseam : Seam s (advance s)) : Clear a (advance s) := h.trans (of_kind hk hne) hseam

/-- A closing parenthesis, also behind a semicolon. -/
theorem close (h : Clear a s) (hclose : (upcoming s).kind = .rparen) : Clear a (advance s) :=
  h.step hclose (by decide) (.continues (by rw [hclose]; decide))

/-- A whole block of a conditional or function that begins where the stretch does. -/
theorem block {v : Block} {ds : List Diagnostic} (h : Clear a s)
    (hs : (current s).kind ≠ .semicolon) (hbrace : (upcoming s).kind = .lbrace)
    (hopens : OpensBlock a (advance s)) (hrun : Run .block (advance s) v ds t) : Clear a t := by
  refine h.extend (.other hs) hrun.ahead.of_advance fun x hsx hxt hkind => ?_
  rcases hsx.eq_or_advance with rfl | hsx
  · rw [upcoming_eq, hkind] at hbrace
    contradiction
  · exact Or.inr ⟨a, advance s, .refl a, hopens, v, ds, t, hrun, hsx, hxt⟩

end Clear

/-! ## Where runs begin and end -/

/-- From a semicolon no expression is read. -/
theorem Run.seam_expression {p : Precedence} {v : Option Expr} {ds : List Diagnostic}
    (h : Run (.expression p) s v ds t) : Seam s t := by
  by_cases hs : (current s).kind = .semicolon
  · have hmissing : Run (.expression p) s none _ s :=
      .expression_missing (.operand_missing (by rw [hs]; rfl))
    exact .stays (h.unique hmissing).2.2
  · exact .other hs

/-- Operators are read where one comes next. -/
theorem Run.seam_operators {p : Precedence} {left e : Expr} {ds : List Diagnostic}
    (h : Run (.operators p left) s e ds t) : Seam s t := by
  cases h with
  | operators_stop => exact .stays rfl
  | operators_step hp =>
    exact .continues (List.mem_cons_of_mem _ (Kind.mem_binary_of_lt_precedence hp))

/-- A block ends on its closing brace or at the end of the text. -/
theorem Run.block_ne_semicolon {b : Block} {ds : List Diagnostic} (h : Run .block s b ds t) :
    (current t).kind ≠ .semicolon := by
  cases h with
  | block hstatements =>
    rcases hstatements.statements_end with hbrace | heof
    · rw [hbrace]
      decide
    · rw [heof]
      decide

/-- An expression behind a token that an operand follows. -/
theorem Clear.operand {p : Precedence} {v : Option Expr} {ds : List Diagnostic}
    (hs : (current s).kind ∈ Kind.beforeOperand) (hrun : Run (.expression p) (advance s) v ds t)
    (h : Clear (advance s) t) : Clear s t := (next (Or.inr hs)).trans h hrun.seam_expression

/-- An expression in parentheses that open next. -/
theorem Clear.parenthesis {p : Precedence} {v : Option Expr} {ds : List Diagnostic}
    (hopen : (upcoming s).kind = .lparen) (hrun : Run (.expression p) (advance (advance s)) v ds t)
    (h : Clear (advance (advance s)) t) : Clear s t := by
  have hparen : (current (advance s)).kind = .lparen := by rwa [← upcoming_eq]
  have hinside : Clear (advance s) t := .operand (by rw [hparen]; decide) hrun h
  exact hinside.behind hopen (by decide)

/-! ## Runs over blocks -/

/-- A block that is found begins at its brace. -/
theorem Run.block_of_braced {b : Block} {ds : List Diagnostic} (h : Run .braced s (some b) ds t) :
    (upcoming s).kind = .lbrace ∧ Run .block (advance s) b ds t := by
  cases h with
  | braced hbrace hblock => exact ⟨hbrace, hblock⟩

/-- A value that begins on a semicolon is missing. -/
theorem Run.value_none {v : Option Expr} {ds : List Diagnostic} (h : Run .value s v ds t)
    (hs : (current s).kind = .semicolon) : v = none := by
  have hmissing : Run .value s none _ s := .value
    (.expression_missing (.operand_missing (by rw [hs]; rfl))) (.lastValue_stop (Or.inl hs))
  exact (h.unique hmissing).1

/-- Before a value that is there nothing has been closed. -/
theorem Run.value_none_or_clear {v : Option Expr} {ds : List Diagnostic}
    (h : Run .value (advance b) v ds t) (hbefore : Clear a b) (hb : (current b).kind ≠ .semicolon)
    (hvalue : Clear (advance b) c) : v = none ∨ Clear a c := by
  by_cases hmissing : (upcoming b).kind = .semicolon
  · exact Or.inl (h.value_none (by rw [← upcoming_eq]; exact hmissing))
  · have hfirst : Clear a (advance b) := hbefore.trans (.next (Or.inl hmissing)) (.other hb)
    exact Or.inr (hfirst.trans hvalue (.other (by rwa [← upcoming_eq])))

end Parser
end MonkeyFrontend
