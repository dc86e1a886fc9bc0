import MonkeyFrontend.Proofs.Parser.Forward
import MonkeyFrontend.Proofs.Parser.Grammar
import MonkeyFrontend.Proofs.Parser.Number
import MonkeyFrontend.Proofs.Source.Cutting

/-! # What is read without a diagnostic is derived

A run that reports nothing reads a phrase of the grammar and gives its tree
(`Run.derived`).  The induction is on the run; `Construct.Derived` says for each construct
what has been read, and for the operators behind an expression what they make of it.
-/
namespace MonkeyFrontend

open TokenSupply

/-! ## Streams of tokens of a text -/

namespace TokenStream

/-- Every token ahead has the kind that its text determines. -/
def Spelled (s : TokenStream) : Prop := ∀ t ∈ s.ahead, Spells t.kind t.literal

variable {s t : TokenStream}

theorem Spelled.advance (h : Spelled s) : Spelled (TokenSupply.advance s) :=
  fun t ht => h t (List.mem_of_mem_tail ht)

theorem Spelled.of_ahead (h : Spelled s) (hst : Ahead s t) : Spelled t :=
  hst.preserves (fun _ hu => hu.advance) h

/-- A stream that does not stand on the end token stands on the first one ahead. -/
theorem ahead_eq_cons (h : (TokenSupply.current s).kind ≠ .eof) :
    s.ahead = TokenSupply.current s :: (TokenSupply.advance s).ahead := by
  obtain ⟨ahead, stop⟩ := s
  cases ahead with
  | nil => exact absurd rfl h
  | cons t ts => rfl

theorem ahead_ne_nil (h : (TokenSupply.current s).kind ≠ .eof) : s.ahead ≠ [] := by
  rw [ahead_eq_cons h]
  exact List.cons_ne_nil _ _

theorem Spelled.ahead_eq_nil (h : Spelled s) (heof : (TokenSupply.current s).kind = .eof) :
    s.ahead = [] := by
  obtain ⟨ahead, stop⟩ := s
  cases ahead with
  | nil => rfl
  | cons t ts => exact absurd heof (h t List.mem_cons_self).ne_eof

end TokenStream

/-- The level of the expressions that a precedence lets through. -/
def Precedence.level (p : Precedence) : Nat := min (p.rank + 1) 5

namespace Parser

open Grammar

/-- Where an expression of a level may end: on no semicolon, and before nothing that binds more
tightly than its context. -/
structure Ends (rank : Nat) (t : TokenStream) : Prop where
  current : (current t).kind ≠ .semicolon
  upcoming : (upcoming t).kind.precedence.rank ≤ rank

theorem ahead_of_kind {s : TokenStream} {k : Kind} (h : (current s).kind = k) (hk : k ≠ .eof) :
    s.ahead = current s :: (advance s).ahead := by
  rw [← h] at hk
  exact TokenStream.ahead_eq_cons hk

theorem ahead_advance_of_kind {s : TokenStream} {k : Kind} (h : (upcoming s).kind = k)
    (hk : k ≠ .eof) : (advance s).ahead = upcoming s :: (advance (advance s)).ahead :=
  ahead_of_kind h hk

theorem ahead_advance_of_nil {s : TokenStream} (h : s.ahead = []) : (advance s).ahead = [] := by
  change s.ahead.tail = []
  rw [h, List.tail_nil]

/-- A stream on which an expression begins stands on a token. -/
theorem ahead_of_begins {s : TokenStream} {k : Nat} (h : (Phrase.expression k).Begins s.ahead) :
    s.ahead = current s :: (advance s).ahead := by
  obtain ⟨t, ht, _⟩ := h
  obtain ⟨ts, hts⟩ := List.head?_eq_some_iff.mp ht
  obtain ⟨ahead, stop⟩ := s
  obtain rfl : ahead = t :: ts := hts
  rfl

/-- An expression that ends in a loose context is not followed by a minus sign. -/
theorem noMinus_of_ends {t : TokenStream} (h : Ends 0 t) : NoMinus (advance t).ahead := by
  intro x hx hminus
  have hnext : upcoming t = x := by
    obtain ⟨ts, hts⟩ := List.head?_eq_some_iff.mp hx
    exact congrArg (List.headD · (Token.eof t.stop)) hts
  have hrank := h.upcoming
  rw [hnext, hminus] at hrank
  exact absurd hrank (by decide)

theorem one_le_level (p : Precedence) : 1 ≤ p.level :=
  Nat.le_min.mpr ⟨Nat.le_add_left 1 _, by decide⟩

/-- **What reading a construct without a diagnostic means.** -/
def Construct.Derived : (c : Construct) → TokenStream → c.Value → TokenStream → Prop
  | expression p, s, v, t => ∃ e : Expr, v = some e ∧
      Derives (.expression p.level) s.ahead e (advance t).ahead ∧ Ends p.rank t
  | operand, s, v, t => ∃ e : Expr, v = some e ∧
      Derives (.expression 5) s.ahead e (advance t).ahead ∧ (current t).kind ≠ .semicolon
  | operators p left, s, v, t => ∀ k ts, p.level ≤ k → k ≤ 5 → Ends k s →
      Derives (.expression k) ts left (advance s).ahead →
      Derives (.expression p.level) ts v (advance t).ahead ∧ Ends p.rank t
  | binary left, s, v, t => ∀ k ts, (current s).kind ∈ Grammar.operators k →
      Derives (.expression k) ts left s.ahead →
      Derives (.expression k) ts v (advance t).ahead ∧ Ends k t
  | unary, s, v, t => (current s).kind = .bang ∨ (current s).kind = .minus →
      Derives (.expression 5) s.ahead v (advance t).ahead ∧ (current t).kind ≠ .semicolon
  | grouped, s, v, t => (current s).kind = .lparen → ∃ e : Expr, v = some e ∧
      Derives (.expression 5) s.ahead e (advance t).ahead ∧ (current t).kind ≠ .semicolon
  | conditional, s, v, t => (current s).kind = .ifWord → ∃ e : Expr, v = some e ∧
      Derives (.expression 5) s.ahead e (advance t).ahead ∧ (current t).kind ≠ .semicolon
  | branches k c, s, v, t => ∃ b a mid, v = some (.conditional k c b a) ∧
      Derives .block (advance s).ahead b mid ∧ Derives .alternative mid a (advance t).ahead ∧
      (current t).kind ≠ .semicolon
  | alternative, s, v, t => ∃ a : Option Block, v = some a ∧
      Derives .alternative (advance s).ahead a (advance t).ahead ∧
      ((current s).kind ≠ .semicolon → (current t).kind ≠ .semicolon)
  | function, s, v, t => (current s).kind = .functionWord → ∃ e : Expr, v = some e ∧
      Derives (.expression 5) s.ahead e (advance t).ahead ∧ (current t).kind ≠ .semicolon
  | braced, s, v, t => ∃ b : Block, v = some b ∧
      Derives .block (advance s).ahead b (advance t).ahead ∧ (current t).kind ≠ .semicolon
  | block, s, v, t => (current s).kind = .lbrace →
      Derives .block s.ahead v (advance t).ahead ∧ (current t).kind ≠ .semicolon
  | statements k, s, v, t => Derives .statements s.ahead v t.ahead ∧
      ((current t).kind = k ∨ (current t).kind = .eof)
  | statement, s, v, t => Derives .statement s.ahead v (advance t).ahead
  | letting, s, v, t => (current s).kind = .letWord →
      Derives .statement s.ahead v (advance t).ahead
  | returning, s, v, t => (current s).kind = .returnWord →
      Derives .statement s.ahead v (advance t).ahead
  | expressionStatement, s, v, t => Derives .statement s.ahead v (advance t).ahead
  | value, s, v, t => ∃ e : Expr, v = some e ∧ Derives .values s.ahead e t.ahead ∧
      ((current t).kind = .semicolon ∨ (current t).kind = .eof)
  | lastValue v, s, w, t => ∀ (e : Expr) ts, v = some e → Ends 0 s →
      Derives (.expression 1) ts e (advance s).ahead → ∃ e : Expr, w = some e ∧
      Derives .values ts e t.ahead ∧ ((current t).kind = .semicolon ∨ (current t).kind = .eof)
  | parameters, s, v, t => ∃ ps : List Identifier, v = some ps ∧
      Derives .parameters (advance s).ahead ps (advance t).ahead
  | moreParameters, s, v, t => ∃ ps : List Identifier, v = some ps ∧
      Derives .moreParameters (advance s).ahead ps (advance t).ahead

/-- **A run that reports nothing reads what the grammar derives.** -/
theorem Run.derived {c : Construct} {s t : TokenStream} {v : c.Value} {ds : List Diagnostic}
    (h : Run c s v ds t) (hds : ds = []) (hs : s.Spelled) : c.Derived s v t := by
  induction h with
  -- What is reported contradicts the assumption.
  | integer_bad | operand_missing | conditional_bare | function_bare | braced_missing
  | letting_bare | letting_open | parameters_bare | moreParameters_bare
  | moreParameters_open => contradiction
  | grouped_open | conditional_open => simp at hds
  | expression_missing _ ih =>
    obtain ⟨e, hnone, _⟩ := ih hds hs
    contradiction
  | branches_missing _ ih =>
    obtain ⟨b, hnone, _⟩ := ih hds hs
    contradiction
  | function_open _ _ ih =>
    obtain ⟨ps, hnone, _⟩ := ih hds hs.advance
    contradiction
  | @expression p s ds t es u left e h₁ h₂ ih₁ ih₂ =>
    obtain ⟨rfl, rfl⟩ := List.append_eq_nil_iff.mp hds
    obtain ⟨_, hleft, hderives, hcurrent⟩ := ih₁ rfl hs
    obtain rfl := Option.some.inj hleft
    have hrank : (upcoming t).kind.precedence.rank ≤ 5 :=
      Nat.le_succ_of_le (rank_precedence_le _)
    obtain ⟨hfinal, hends⟩ := ih₂ rfl (hs.of_ahead h₁.ahead) 5 s.ahead (Nat.min_le_right _ _)
      (Nat.le_refl 5) ⟨hcurrent, hrank⟩ hderives
    exact ⟨e, rfl, hfinal, hends⟩
  | @identifier s h =>
    refine ⟨_, rfl, ?_, by simp [h]⟩
    rw [ahead_of_kind h (by decide)]
    exact .identifier h
  | @integer s n h hn =>
    have hne : (current s).kind ≠ .eof := by simp [h]
    have hspell : Spells (current s).kind (current s).literal :=
      hs _ (by rw [TokenStream.ahead_eq_cons hne]; exact List.mem_cons_self)
    rw [h] at hspell
    obtain ⟨hle, rfl⟩ := (integerValue?_eq_some_iff hspell).mp hn
    refine ⟨_, rfl, ?_, by simp [h]⟩
    rw [TokenStream.ahead_eq_cons hne]
    exact .integer h hle
  | @boolean s h =>
    refine ⟨_, rfl, ?_, by rcases h with h | h <;> simp [h]⟩
    rw [TokenStream.ahead_eq_cons (by rcases h with h | h <;> simp [h])]
    exact .boolean h
  | operand_unary h _ ih =>
    obtain ⟨hderives, hcurrent⟩ := ih hds hs h
    exact ⟨_, rfl, hderives, hcurrent⟩
  | operand_grouped h _ ih | operand_conditional h _ ih | operand_function h _ ih =>
    exact ih hds hs h
  | @operators_stop p s left h =>
    intro k ts hk hk5 hends hderives
    exact ⟨hderives.looser (one_le_level p) hk hk5, hends.current, Nat.le_of_not_lt h⟩
  | @operators_step p s ds t es u left next e h h₁ h₂ ih₁ ih₂ =>
    intro k ts hk hk5 hends hderives
    obtain ⟨rfl, rfl⟩ := List.append_eq_nil_iff.mp hds
    have hlt : p.rank < (upcoming s).kind.precedence.rank := h
    have hle := rank_precedence_le (upcoming s).kind
    -- The expression on the left is one of the level of the operator that follows it.
    have hleft : Derives (.expression (upcoming s).kind.precedence.rank) ts left
        (advance s).ahead := hderives.looser (by omega) hends.upcoming hk5
    have hmem : (upcoming s).kind ∈ Grammar.operators (upcoming s).kind.precedence.rank :=
      mem_operators.mpr ⟨by omega, rfl⟩
    obtain ⟨hnext, hends'⟩ := ih₁ rfl hs.advance _ ts hmem hleft
    have hlevel : p.level ≤ (upcoming s).kind.precedence.rank :=
      Nat.le_trans (Nat.min_le_left _ _) hlt
    exact ih₂ rfl (hs.advance.of_ahead h₁.ahead) _ ts hlevel (by omega) hends' hnext
  | @binary s ds t left r h ih =>
    intro k ts hmem hleft
    obtain ⟨hk, hrank⟩ := mem_operators.mp hmem
    obtain ⟨e, rfl, hright, hends⟩ := ih hds hs.advance
    have hne : (current s).kind ≠ .eof := by
      intro heof
      rw [heof] at hrank
      exact hk hrank.symm
    have hle := rank_precedence_le (current s).kind
    have hlevel : (current s).kind.precedence.level = k + 1 := by
      rw [Precedence.level]
      omega
    rw [hlevel] at hright
    rw [hrank] at hends
    rw [TokenStream.ahead_eq_cons hne] at hleft
    exact ⟨.binary hmem hleft hright, hends⟩
  | @unary s ds t r h ih =>
    intro hk
    obtain ⟨e, rfl, hright, hends⟩ := ih hds hs.advance
    rw [TokenStream.ahead_eq_cons (by rcases hk with hk | hk <;> simp [hk])]
    exact ⟨.unary hk.symm hright, hends.current⟩
  | @grouped s ds t v h hclose ih =>
    intro hk
    obtain ⟨e, rfl, hinner, _⟩ := ih hds hs.advance
    have hne : (current (advance t)).kind ≠ .eof := by rw [← upcoming_eq, hclose]; decide
    rw [TokenStream.ahead_eq_cons hne] at hinner
    refine ⟨e, rfl, ?_, by rw [← upcoming_eq, hclose]; decide⟩
    rw [ahead_of_kind hk (by decide)]
    exact .grouped hk hinner hclose
  | @conditional s ds t es u c v h₁ h₂ hclose h₃ ih₁ ih₂ =>
    intro hk
    obtain ⟨rfl, rfl⟩ := List.append_eq_nil_iff.mp hds
    have hs' : (advance (advance s)).Spelled := hs.advance.advance
    obtain ⟨e, rfl, hcondition, _⟩ := ih₁ rfl hs'
    obtain ⟨b, a, mid, rfl, hblock, halternative, hcurrent⟩ :=
      ih₂ rfl (hs'.of_ahead h₂.ahead).advance
    rw [ahead_advance_of_kind hclose (by decide)] at hcondition
    refine ⟨_, rfl, ?_, hcurrent⟩
    rw [ahead_of_kind hk (by decide), ahead_advance_of_kind h₁ (by decide)]
    exact .conditional hk h₁ hcondition hclose hblock halternative
  | @branches k s ds t es u c b a h₁ h₂ ih₁ ih₂ =>
    obtain ⟨rfl, rfl⟩ := List.append_eq_nil_iff.mp hds
    obtain ⟨_, hb, hblock, hcurrent⟩ := ih₁ rfl hs
    obtain rfl := Option.some.inj hb
    obtain ⟨a', rfl, halternative, hend⟩ := ih₂ rfl (hs.of_ahead h₁.ahead)
    exact ⟨b, a', _, rfl, hblock, halternative, hend hcurrent⟩
  | alternative hk _ ih =>
    obtain ⟨b, rfl, hblock, hcurrent⟩ := ih hds hs.advance
    refine ⟨_, rfl, ?_, fun _ => hcurrent⟩
    rw [ahead_advance_of_kind hk (by decide)]
    exact .alternative hk hblock
  | alternative_absent hk => exact ⟨_, rfl, .no_alternative, id⟩
  | @function s ds t es u ps b h₁ h₂ h₃ ih₁ ih₂ =>
    intro hk
    obtain ⟨rfl, rfl⟩ := List.append_eq_nil_iff.mp hds
    obtain ⟨_, hps, hparameters⟩ := ih₁ rfl hs.advance
    obtain rfl := Option.some.inj hps
    obtain ⟨b, rfl, hblock, hcurrent⟩ := ih₂ rfl (hs.advance.of_ahead h₂.ahead)
    refine ⟨_, rfl, ?_, hcurrent⟩
    rw [ahead_of_kind hk (by decide), ahead_advance_of_kind h₁ (by decide)]
    exact .function hk h₁ hparameters hblock
  | braced hk _ ih =>
    obtain ⟨hblock, hcurrent⟩ := ih hds hs.advance hk
    exact ⟨_, rfl, hblock, hcurrent⟩
  | @block s ds t ss h ih =>
    intro hk
    obtain ⟨hstatements, hclose | heof⟩ := ih hds hs.advance
    · rw [ahead_of_kind hclose (by decide)] at hstatements
      refine ⟨?_, by simp [hclose]⟩
      rw [ahead_of_kind hk (by decide)]
      exact .block_closed hk hstatements hclose
    · have hnil := (hs.advance.of_ahead h.ahead).ahead_eq_nil heof
      rw [hnil] at hstatements
      refine ⟨?_, by simp [heof]⟩
      rw [ahead_of_kind hk (by decide), ahead_advance_of_nil hnil]
      exact .block_end hk hstatements
  | statements_stop h => exact ⟨.no_statements, h⟩
  | statements_step _ h₁ _ ih₁ ih₂ =>
    obtain ⟨rfl, rfl⟩ := List.append_eq_nil_iff.mp hds
    obtain ⟨hlater, hend⟩ := ih₂ rfl (hs.of_ahead h₁.ahead).advance
    exact ⟨.statements (ih₁ rfl hs) hlater, hend⟩
  | statement_letting hk _ ih | statement_returning hk _ ih => exact ih hds hs hk
  | statement_expression _ _ _ ih => exact ih hds hs
  | @letting s ds t v h₁ h₂ h₃ ih =>
    intro hk
    have hs' : (advance (advance (advance s))).Spelled := hs.advance.advance.advance
    obtain ⟨e, rfl, hvalues, hclose | heof⟩ := ih hds hs'
    · rw [ahead_of_kind hclose (by decide)] at hvalues
      rw [ahead_of_kind hk (by decide), ahead_advance_of_kind h₁ (by decide),
        ahead_advance_of_kind h₂ (by decide)]
      exact .letting_closed hk h₁ h₂ hvalues hclose
    · have hnil := (hs'.of_ahead h₃.ahead).ahead_eq_nil heof
      rw [hnil] at hvalues
      rw [ahead_of_kind hk (by decide), ahead_advance_of_kind h₁ (by decide),
        ahead_advance_of_kind h₂ (by decide), ahead_advance_of_nil hnil]
      exact .letting_end hk h₁ h₂ hvalues
  | @returning s ds t v h ih =>
    intro hk
    obtain ⟨e, rfl, hvalues, hclose | heof⟩ := ih hds hs.advance
    · rw [ahead_of_kind hclose (by decide)] at hvalues
      rw [ahead_of_kind hk (by decide)]
      exact .returning_closed hk hvalues hclose
    · have hnil := (hs.advance.of_ahead h.ahead).ahead_eq_nil heof
      rw [hnil] at hvalues
      rw [ahead_of_kind hk (by decide), ahead_advance_of_nil hnil]
      exact .returning_end hk hvalues
  | expressionStatement_closed _ hclose ih =>
    obtain ⟨e, rfl, hderives, _⟩ := ih hds hs
    have hcons := ahead_of_begins hderives.begins
    rw [hcons, ahead_advance_of_kind hclose (by decide)] at hderives
    rw [Construct.Derived, hcons]
    exact .expression_closed hderives hclose
  | expressionStatement _ _ ih =>
    obtain ⟨e, rfl, hderives, hends⟩ := ih hds hs
    have hcons := ahead_of_begins hderives.begins
    rw [hcons] at hderives
    rw [Construct.Derived, hcons]
    exact .expression hderives (noMinus_of_ends hends)
  | @value s ds t es u v w h₁ h₂ ih₁ ih₂ =>
    obtain ⟨rfl, rfl⟩ := List.append_eq_nil_iff.mp hds
    obtain ⟨e, rfl, hderives, hends⟩ := ih₁ rfl hs
    exact ih₂ rfl (hs.of_ahead h₁.ahead) e s.ahead rfl hends hderives
  | lastValue_stop h =>
    rintro e ts rfl hends hderives
    have heof := h.resolve_left hends.current
    have hnil := hs.ahead_eq_nil heof
    have hvalues := Derives.value hderives (noMinus_of_ends hends)
    rw [ahead_advance_of_nil hnil, ← hnil] at hvalues
    exact ⟨e, rfl, hvalues, Or.inr heof⟩
  | lastValue_closed _ h =>
    rintro e ts rfl hends hderives
    exact ⟨e, rfl, .value hderives (noMinus_of_ends hends), h⟩
  | @lastValue_step s ds t es u v next w _ _ h₁ h₂ ih₁ ih₂ =>
    rintro e ts rfl hends hderives
    obtain ⟨rfl, rfl⟩ := List.append_eq_nil_iff.mp hds
    obtain ⟨e', rfl, hnext, hends'⟩ := ih₁ rfl hs.advance
    obtain ⟨f, rfl, hvalues, hend⟩ :=
      ih₂ rfl (hs.advance.of_ahead h₁.ahead) e' _ rfl hends' hnext
    exact ⟨f, rfl, .values hderives (noMinus_of_ends hends) hvalues, hend⟩
  | parameters_none h =>
    refine ⟨_, rfl, ?_⟩
    rw [ahead_advance_of_kind h (by decide)]
    exact .no_parameters h
  | parameters h _ ih =>
    obtain ⟨ps, rfl, hmore⟩ := ih hds hs.advance
    refine ⟨_, rfl, ?_⟩
    rw [ahead_advance_of_kind h (by decide)]
    exact .parameters h hmore
  | moreParameters h₁ h₂ _ ih =>
    obtain ⟨ps, rfl, hmore⟩ := ih hds hs.advance.advance
    refine ⟨_, rfl, ?_⟩
    rw [ahead_advance_of_kind h₁ (by decide), ahead_advance_of_kind h₂ (by decide)]
    exact .more_parameters h₁ h₂ hmore
  | moreParameters_end h =>
    refine ⟨_, rfl, ?_⟩
    rw [ahead_advance_of_kind h (by decide)]
    exact .last_parameter h

end Parser
end MonkeyFrontend
