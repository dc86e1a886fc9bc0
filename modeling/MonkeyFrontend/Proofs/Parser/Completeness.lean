import MonkeyFrontend.Proofs.Parser.Grammar
import MonkeyFrontend.Proofs.Parser.Number
import MonkeyFrontend.Proofs.Parser.Run
import MonkeyFrontend.Proofs.Source.Cutting

/-! # What is derived is read without a diagnostic

Every phrase of the grammar is read, from where it begins, to its tree and without a
diagnostic, whenever what follows it does not continue it (`Derives.read`).  The induction is
on the derivation; `Phrase.Read` says for each phrase how it is read.  An expression of a level
is read by every call that lets the operators of its level through, and what such a call goes
on to make of it is left open: that is what carries the induction over operators that
associate to the left.
-/
namespace MonkeyFrontend

open TokenSupply MonkeyFrontend.Parser

namespace Grammar

variable {stop : Position}

/-! ## What may follow -/

/-- What follows an expression and neither continues it on a level above `n` nor is an
alternative. -/
def Loose (n : Nat) (rest : List Token) : Prop :=
  ∀ t ∈ rest.head?, t.kind.precedence.rank ≤ n ∧ t.kind ≠ .elseWord

/-- What follows the statements before a closing token. -/
def ClosedBy (closer : Kind) (rest : List Token) : Prop :=
  ∀ t ∈ rest.head?, t.kind = .rbrace ∧ closer = .rbrace

/-- What follows a statement: the next one, or the end of a block or of the text. -/
def Follows (rest : List Token) : Prop :=
  ∀ t ∈ rest.head?, StartsStatement t.kind ∨ t.kind = .rbrace

/-- What follows the values of a let or return statement. -/
def Ended (rest : List Token) : Prop := ∀ t ∈ rest.head?, t.kind = .semicolon

theorem Loose.mono {m n : Nat} {rest : List Token} (h : Loose m rest) (hmn : m ≤ n) :
    Loose n rest :=
  fun t ht => ⟨Nat.le_trans (h t ht).1 hmn, (h t ht).2⟩

/-- What holds of the first token and of the end of the text holds of the current token. -/
theorem current_of_head {rest : List Token} {P : Kind → Prop}
    (h : ∀ t ∈ rest.head?, P t.kind) (heof : P .eof) :
    P (current (TokenStream.mk rest stop)).kind := by
  cases rest with
  | nil => exact heof
  | cons t ts => exact h t rfl

theorem not_starts_closer {k closer : Kind} (hk : StartsStatement k)
    (hcloser : closer = .rbrace ∨ closer = .eof) : ¬ (k = closer ∨ k = .eof) := by
  rintro (rfl | rfl)
  · rcases hcloser with rfl | rfl <;> exact absurd hk (by decide)
  · exact absurd hk (by decide)

/-- But for a minus sign, what begins a statement continues no expression. -/
theorem loose_of_starts {k : Kind} (h : StartsStatement k) (hk : k ≠ .minus) :
    k.precedence.rank = 0 ∧ k ≠ .elseWord ∧ k ≠ .semicolon := by
  revert h hk
  cases k <;> decide

/-- What begins with an expression, but not with a minus sign, continues no expression. -/
theorem loose_of_begins {ts : List Token} (h : Phrase.values.Begins ts) (hminus : NoMinus ts) :
    Loose 0 ts := by
  intro t ht
  obtain ⟨u, hu, hstart⟩ := h
  obtain rfl := Option.mem_unique ht hu
  obtain ⟨hrank, helse, _⟩ := loose_of_starts (Or.inl hstart) (hminus t ht)
  exact ⟨Nat.le_of_eq hrank, helse⟩

theorem loose_of_ended {rest : List Token} (h : Ended rest) : Loose 0 rest := by
  intro t ht
  rw [h t ht]
  decide

theorem loose_of_follows {rest : List Token} (h : Follows rest) (hminus : NoMinus rest) :
    Loose 0 rest ∧ ∀ t ∈ rest.head?, t.kind ≠ .semicolon := by
  have hall : ∀ t ∈ rest.head?,
      (t.kind.precedence.rank ≤ 0 ∧ t.kind ≠ .elseWord) ∧ t.kind ≠ .semicolon := by
    intro t ht
    rcases h t ht with hstart | hbrace
    · obtain ⟨hrank, helse, hsemicolon⟩ := loose_of_starts hstart (hminus t ht)
      exact ⟨⟨Nat.le_of_eq hrank, helse⟩, hsemicolon⟩
    · rw [hbrace]
      decide
  exact ⟨fun t ht => (hall t ht).1, fun t ht => (hall t ht).2⟩

/-! ## How a phrase is read -/

/-- A stream on the last token of a phrase that `rest` follows.  Where the phrase ends with the
text, the stream may stand behind it. -/
structure Reached (stop : Position) (rest : List Token) (m : TokenStream) : Prop where
  advance : advance m = ⟨rest, stop⟩
  semicolon : (current m).kind ≠ .semicolon
  eof : (current m).kind = .eof → m = ⟨rest, stop⟩

theorem Reached.upcoming {t : Token} {rest : List Token} {m : TokenStream}
    (h : Reached stop (t :: rest) m) : TokenSupply.upcoming m = t := by
  rw [upcoming_eq, h.advance]
  rfl

/-- **How a phrase is read.** -/
def Phrase.Read (stop : Position) : (x : Phrase) → List Token → x.Tree → List Token → Prop
  | .expression k, ts, e, rest => Loose k rest → ∃ m, Reached stop rest m ∧
      ∀ p : Precedence, p.rank < k ∨ k = 5 → ∀ (e' : Expr) (u : TokenStream),
        Run (.operators p e) m e' [] u → Run (.expression p) ⟨ts, stop⟩ (some e') [] u
  | .parameters, ts, ps, rest => ∀ t, ∃ m : TokenStream, advance m = ⟨rest, stop⟩ ∧
      Run .parameters (TokenStream.mk (t :: ts) stop) (some ps) [] m
  | .moreParameters, ts, ps, rest => ∀ t, ∃ m : TokenStream, advance m = ⟨rest, stop⟩ ∧
      Run .moreParameters (TokenStream.mk (t :: ts) stop) (some ps) [] m
  | .alternative, ts, a, rest => (∀ t ∈ rest.head?, t.kind ≠ .elseWord) → ∀ s,
      Reached stop ts s → ∃ m, Reached stop rest m ∧ Run .alternative s (some a) [] m
  | .block, ts, b, rest => ∃ m, Reached stop rest m ∧ Run .block (TokenStream.mk ts stop) b [] m
  | .statements, ts, ss, rest => ∀ closer, closer = .rbrace ∨ closer = .eof →
      ClosedBy closer rest →
      Run (.statements closer) (TokenStream.mk ts stop) ss [] (TokenStream.mk rest stop)
  | .statement, ts, x, rest => Follows rest → ∃ m : TokenStream, advance m = ⟨rest, stop⟩ ∧
      Run .statement (TokenStream.mk ts stop) x [] m
  | .values, ts, v, rest => Ended rest →
      Run .value (TokenStream.mk ts stop) (some v) [] (TokenStream.mk rest stop)

/-- An expression before what does not continue it is read by every call that lets its level
through and no further operator. -/
theorem run_of_read {k : Nat} {ts rest : List Token} {e : Expr} {p : Precedence}
    (h : (Phrase.expression k).Read stop ts e rest) (hp : p.rank < k ∨ k = 5)
    (hpk : p.rank ≤ k) (hrest : Loose p.rank rest) :
    ∃ m, Reached stop rest m ∧ Run (.expression p) (TokenStream.mk ts stop) (some e) [] m := by
  obtain ⟨m, hm, hgo⟩ := h (hrest.mono hpk)
  refine ⟨m, hm, hgo p hp e m (.operators_stop ?_)⟩
  have hrank : (current (advance m)).kind.precedence.rank ≤ p.rank := by
    rw [hm.advance]
    exact current_of_head (P := fun k => k.precedence.rank ≤ p.rank)
      (fun t ht => (hrest t ht).1) (Nat.zero_le _)
  exact Nat.not_lt.mpr hrank

/-- An expression that is read as an operand is of every level. -/
theorem read_of_operand {k : Nat} {ts rest : List Token} {e : Expr} {m : TokenStream}
    (hm : Reached stop rest m) (h : Run .operand (TokenStream.mk ts stop) (some e) [] m) :
    (Phrase.expression k).Read stop ts e rest :=
  fun _ => ⟨m, hm, fun _ _ _ _ hops => .expression h hops⟩

/-- The run over the values of a statement, in its two parts. -/
theorem value_cases {s u : TokenStream} {w : Option Expr} {ds : List Diagnostic}
    (h : Run .value s w ds u) : ∃ (v : Option Expr) (t : TokenStream) (ds₁ ds₂ : _),
      ds = ds₁ ++ ds₂ ∧ Run (.expression .lowest) s v ds₁ t ∧ Run (.lastValue v) t w ds₂ u := by
  cases h with
  | value h₁ h₂ => exact ⟨_, _, _, _, rfl, h₁, h₂⟩

/-- The statements before a closing token begin with what follows a statement. -/
theorem follows_of_derives {ts rest : List Token} {ss : List Stmt} {closer : Kind}
    (h : Derives .statements ts ss rest) (hrest : ClosedBy closer rest) : Follows ts := by
  cases h with
  | no_statements => exact fun t ht => Or.inr (hrest t ht).1
  | statements hs _ =>
    intro t ht
    obtain ⟨u, hu, hstart⟩ := hs.begins
    obtain rfl := Option.mem_unique ht hu
    exact Or.inl hstart

/-- A block begins behind the token before it. -/
theorem run_braced {ts rest : List Token} {b : Block} {s m : TokenStream}
    (h : Derives .block ts b rest) (hs : advance s = ⟨ts, stop⟩)
    (hrun : Run .block (TokenStream.mk ts stop) b [] m) : Run .braced s (some b) [] m := by
  refine .braced ?_ (hs ▸ hrun)
  obtain ⟨t, ht, hk⟩ := h.begins
  obtain ⟨us, rfl⟩ := List.head?_eq_some_iff.mp ht
  rw [upcoming_eq, hs]
  exact hk

/-- A stream on a token that is no semicolon has reached what follows this token. -/
theorem reached_cons {t : Token} {k : Kind} {rest : List Token} (ht : t.kind = k)
    (hsemicolon : k ≠ .semicolon) (heof : k ≠ .eof) :
    Reached stop rest (TokenStream.mk (t :: rest) stop) := by
  refine ⟨rfl, ?_, fun h => absurd (ht.symm.trans h) heof⟩
  change t.kind ≠ _
  rwa [ht]

/-- A stream at the end of the text has reached the end. -/
theorem reached_nil : Reached stop [] (TokenStream.mk [] stop) :=
  ⟨rfl, nofun, fun _ => rfl⟩

theorem loose_cons {n : Nat} {t : Token} {k : Kind} {rest : List Token} (ht : t.kind = k)
    (hk : k.precedence.rank ≤ n ∧ k ≠ .elseWord) : Loose n (t :: rest) := by
  rintro u ⟨⟩
  rwa [ht]

/-- What begins with an expression begins with the keyword of no other statement. -/
theorem not_word_of_begins {t : Token} {ts : List Token} {k : Nat}
    (h : (Phrase.expression k).Begins (t :: ts)) : t.kind ≠ .letWord ∧ t.kind ≠ .returnWord := by
  obtain ⟨u, ⟨⟩, hstart⟩ := h
  constructor <;> intro hk <;> rw [hk] at hstart <;> contradiction

/-- **What the grammar derives is read.** -/
theorem Derives.read {x : Phrase} {ts rest : List Token} {v : x.Tree}
    (h : Derives x ts v rest) (hts : ∀ t ∈ ts, Spells t.kind t.literal) :
    x.Read stop ts v rest := by
  induction h with
  | tighter _ hk _ ih =>
    intro hrest
    obtain ⟨m, hm, hgo⟩ := ih hts (hrest.mono (Nat.le_succ _))
    exact ⟨m, hm, fun p hp => hgo p (Or.inl (by omega))⟩
  | @binary k ts mid rest l r o hmem hleft hright ihl ihr =>
    intro hrest
    obtain ⟨hk, hrank⟩ := mem_operators.mp hmem
    have hle := rank_precedence_le o.kind
    have hmid : ∀ t ∈ mid, Spells t.kind t.literal :=
      fun t ht => hts t (hleft.suffix.subset (List.mem_cons_of_mem _ ht))
    have helse : o.kind ≠ .elseWord := by
      intro helse
      rw [helse] at hrank
      exact hk hrank.symm
    obtain ⟨ml, hml, hgo⟩ := ihl hts (loose_cons rfl ⟨Nat.le_of_eq hrank, helse⟩)
    obtain ⟨mr, hmr, hrun⟩ := run_of_read (p := o.kind.precedence) (ihr hmid) (by omega)
      (by omega) (by rwa [hrank])
    refine ⟨mr, hmr, fun p hp e' u hops => hgo p hp e' u ?_⟩
    have hbinary : Run (.binary l) (TokenStream.mk (o :: mid) stop)
        (.binary o l o.literal (some r)) [] mr := .binary hrun
    have hlt : p < (upcoming ml).kind.precedence := by
      rw [hml.upcoming]
      change p.rank < o.kind.precedence.rank
      omega
    exact .operators_step hlt (hml.advance ▸ hbinary) hops
  | @unary ts rest e o ho h ih =>
    intro hrest
    obtain ⟨m, hm, hrun⟩ := run_of_read (p := .unary)
      (ih fun t ht => hts t (List.mem_cons_of_mem _ ht)) (Or.inr rfl) (Nat.le_refl 5) hrest
    have hunary : Run .unary (TokenStream.mk (o :: ts) stop) (.unary o o.literal (some e)) [] m :=
      .unary hrun
    exact read_of_operand hm (.operand_unary ho.symm hunary) hrest
  | @identifier rest t ht =>
    have hoperand : Run .operand (TokenStream.mk (t :: rest) stop)
        (some (.identifier ⟨t, t.literal⟩)) [] (TokenStream.mk (t :: rest) stop) := .identifier ht
    exact read_of_operand (reached_cons ht (by decide) (by decide)) hoperand
  | @integer rest t ht hle =>
    have hspell := hts t List.mem_cons_self
    rw [ht] at hspell
    have hvalue : integerValue? t.literal = some (decimalValue t.literal) :=
      (integerValue?_eq_some_iff hspell).mpr ⟨hle, rfl⟩
    have hoperand : Run .operand (TokenStream.mk (t :: rest) stop)
        (some (.integer t (decimalValue t.literal))) [] (TokenStream.mk (t :: rest) stop) :=
      .integer ht hvalue
    exact read_of_operand (reached_cons ht (by decide) (by decide)) hoperand
  | @boolean rest t ht =>
    have hoperand : Run .operand (TokenStream.mk (t :: rest) stop)
        (some (.boolean t (t.kind == .trueWord))) [] (TokenStream.mk (t :: rest) stop) :=
      .boolean ht
    refine read_of_operand ?_ hoperand
    rcases ht with ht | ht <;> exact reached_cons ht (by decide) (by decide)
  | @grouped ts rest e l r hl h hr ih =>
    obtain ⟨m, hm, hrun⟩ := run_of_read (p := .lowest)
      (ih fun t ht => hts t (List.mem_cons_of_mem _ ht)) (Or.inl Nat.zero_lt_one) (Nat.zero_le 1)
      (loose_cons hr (by decide))
    have hclose : (upcoming m).kind = .rparen := by rwa [hm.upcoming]
    have hgrouped : Run .grouped (TokenStream.mk (l :: ts) stop) (some e) []
        (TokenStream.mk (r :: rest) stop) := by
      rw [← hm.advance]
      exact .grouped hrun hclose
    exact read_of_operand (reached_cons hr (by decide) (by decide))
      (.operand_grouped hl hgrouped)
  | @conditional ts ts' mid rest c b a t l r ht hl hc hr hb ha ihc ihb iha =>
    intro hrest
    have hts₁ : ∀ u ∈ ts, Spells u.kind u.literal :=
      fun u hu => hts u (List.mem_cons_of_mem _ (List.mem_cons_of_mem _ hu))
    have hts₂ : ∀ u ∈ ts', Spells u.kind u.literal :=
      fun u hu => hts₁ u (hc.suffix.subset (List.mem_cons_of_mem _ hu))
    have hts₃ : ∀ u ∈ mid, Spells u.kind u.literal := fun u hu => hts₂ u (hb.suffix.subset hu)
    obtain ⟨mc, hmc, hrunc⟩ := run_of_read (p := .lowest) (ihc hts₁) (Or.inl Nat.zero_lt_one)
      (Nat.zero_le 1) (loose_cons hr (by decide))
    obtain ⟨mb, hmb, hrunb⟩ := ihb hts₂
    obtain ⟨ma, hma, hruna⟩ := iha hts₃ (fun u hu => (hrest u hu).2) mb hmb
    have hclose : (upcoming mc).kind = .rparen := by rwa [hmc.upcoming]
    have hbraced : Run .braced (advance mc) (some b) [] mb :=
      run_braced hb (by rw [hmc.advance]; rfl) hrunb
    have hconditional : Run .conditional (TokenStream.mk (t :: l :: ts) stop)
        (some (.conditional t (some c) b a)) [] ma :=
      .conditional (s := ⟨t :: l :: ts, stop⟩) (c := some c) hl hrunc hclose
        (.branches hbraced hruna)
    exact read_of_operand hma (.operand_conditional ht hconditional) hrest
  | @function ts mid rest ps b t l ht hl hps hb ihps ihb =>
    have hts₁ : ∀ u ∈ ts, Spells u.kind u.literal :=
      fun u hu => hts u (List.mem_cons_of_mem _ (List.mem_cons_of_mem _ hu))
    obtain ⟨mp, hmp, hrunp⟩ := ihps hts₁ l
    obtain ⟨mb, hmb, hrunb⟩ := ihb fun u hu => hts₁ u (hps.suffix.subset hu)
    have hfunction : Run .function (TokenStream.mk (t :: l :: ts) stop)
        (some (.function t ps b)) [] mb :=
      .function (s := ⟨t :: l :: ts, stop⟩) (b := some b) hl hrunp (run_braced hb hmp hrunb)
    exact read_of_operand hmb (.operand_function ht hfunction)
  | no_parameters hr => exact fun t => ⟨_, rfl, .parameters_none hr⟩
  | @parameters ts rest ps i hi h ih =>
    intro t
    obtain ⟨m, hm, hrun⟩ := ih (fun u hu => hts u (List.mem_cons_of_mem _ hu)) i
    exact ⟨m, hm, @Run.parameters _ _ (TokenStream.mk (t :: i :: ts) stop) _ _ (some ps) hi hrun⟩
  | last_parameter hr => exact fun t => ⟨_, rfl, .moreParameters_end hr⟩
  | @more_parameters ts rest ps c i hc hi h ih =>
    intro t
    obtain ⟨m, hm, hrun⟩ := ih
      (fun u hu => hts u (List.mem_cons_of_mem _ (List.mem_cons_of_mem _ hu))) i
    exact ⟨m, hm, @Run.moreParameters _ _ (TokenStream.mk (t :: c :: i :: ts) stop) _ _
      (some ps) hc hi hrun⟩
  | no_alternative =>
    intro hrest s hs
    refine ⟨s, hs, .alternative_absent ?_⟩
    rw [upcoming_eq, hs.advance]
    exact current_of_head (P := (· ≠ .elseWord)) hrest (by decide)
  | @alternative ts rest b t ht hb ih =>
    intro _ s hs
    obtain ⟨m, hm, hrun⟩ := ih fun u hu => hts u (List.mem_cons_of_mem _ hu)
    have helse : (upcoming s).kind = .elseWord := by rwa [hs.upcoming]
    exact ⟨m, hm, .alternative helse (run_braced hb (by rw [hs.advance]; rfl) hrun)⟩
  | @block_closed ts rest ss l r hl h hr ih =>
    have hrun := ih (fun u hu => hts u (List.mem_cons_of_mem _ hu)) .rbrace (Or.inl rfl)
      (by rintro u ⟨⟩; exact ⟨hr, rfl⟩)
    exact ⟨_, reached_cons hr (by decide) (by decide), .block hrun⟩
  | @block_end ts ss l hl h ih =>
    have hrun := ih (fun u hu => hts u (List.mem_cons_of_mem _ hu)) .rbrace (Or.inl rfl)
      (by rintro u ⟨⟩)
    exact ⟨_, reached_nil, .block hrun⟩
  | no_statements =>
    intro closer _ hrest
    refine .statements_stop (current_of_head (P := fun k => k = closer ∨ k = .eof) ?_ (Or.inr rfl))
    intro t ht
    obtain ⟨hk, rfl⟩ := hrest t ht
    exact Or.inl hk
  | @statements ts mid rest s ss h₁ h₂ ih₁ ih₂ =>
    intro closer hcloser hrest
    have hlater := ih₂ (fun u hu => hts u (h₁.suffix.subset hu)) closer hcloser hrest
    obtain ⟨m, hm, hrun⟩ := ih₁ hts (follows_of_derives h₂ hrest)
    refine .statements_step ?_ hrun (hm ▸ hlater)
    obtain ⟨t, ht, hstart⟩ := h₁.begins
    obtain ⟨us, rfl⟩ := List.head?_eq_some_iff.mp ht
    exact not_starts_closer hstart hcloser
  | @letting_closed ts rest e t i a s ht hi ha h hs ih =>
    intro _
    have hrun := ih (fun u hu => hts u (by simp [hu])) (by rintro u ⟨⟩; exact hs)
    exact ⟨_, rfl, .statement_letting ht (.letting hi ha hrun)⟩
  | @letting_end ts e t i a ht hi ha h ih =>
    intro _
    have hrun := ih (fun u hu => hts u (by simp [hu])) (by rintro u ⟨⟩)
    exact ⟨_, rfl, .statement_letting ht (.letting hi ha hrun)⟩
  | @returning_closed ts rest e t s ht h hs ih =>
    intro _
    have hrun := ih (fun u hu => hts u (by simp [hu])) (by rintro u ⟨⟩; exact hs)
    exact ⟨_, rfl, .statement_returning ht (.returning hrun)⟩
  | @returning_end ts e t ht h ih =>
    intro _
    have hrun := ih (fun u hu => hts u (by simp [hu])) (by rintro u ⟨⟩)
    exact ⟨_, rfl, .statement_returning ht (.returning hrun)⟩
  | @expression_closed ts rest e t s h hs ih =>
    intro _
    obtain ⟨m, hm, hrun⟩ := run_of_read (p := .lowest) (ih hts) (Or.inl Nat.zero_lt_one)
      (Nat.zero_le 1) (loose_cons hs (by decide))
    have hclose : (upcoming m).kind = .semicolon := by rwa [hm.upcoming]
    obtain ⟨hlet, hreturn⟩ := not_word_of_begins h.begins
    refine ⟨advance m, by rw [hm.advance]; rfl, ?_⟩
    exact .statement_expression hlet hreturn (.expressionStatement_closed hrun hclose)
  | @expression ts rest e t h hminus ih =>
    intro hrest
    obtain ⟨hloose, hsemicolon⟩ := loose_of_follows hrest hminus
    obtain ⟨m, hm, hrun⟩ := run_of_read (p := .lowest) (ih hts) (Or.inl Nat.zero_lt_one)
      (Nat.zero_le 1) hloose
    have hopen : (upcoming m).kind ≠ .semicolon := by
      rw [upcoming_eq, hm.advance]
      exact current_of_head (P := (· ≠ .semicolon)) hsemicolon (by decide)
    obtain ⟨hlet, hreturn⟩ := not_word_of_begins h.begins
    refine ⟨m, hm.advance, ?_⟩
    exact .statement_expression hlet hreturn (.expressionStatement hrun hopen)
  | @value ts rest e h hminus ih =>
    intro hrest
    obtain ⟨m, hm, hrun⟩ := run_of_read (p := .lowest) (ih hts) (Or.inl Nat.zero_lt_one)
      (Nat.zero_le 1) (loose_of_ended hrest)
    refine .value hrun ?_
    by_cases heof : (current m).kind = .eof
    · obtain rfl := hm.eof heof
      exact .lastValue_stop (Or.inr heof)
    · have hopen : ¬ ((current m).kind = .semicolon ∨ (current m).kind = .eof) :=
        not_or.mpr ⟨hm.semicolon, heof⟩
      have hnext : (upcoming m).kind = .semicolon ∨ (upcoming m).kind = .eof := by
        rw [upcoming_eq, hm.advance]
        exact current_of_head (P := fun k => k = .semicolon ∨ k = .eof)
          (fun t ht => Or.inl (hrest t ht)) (Or.inr rfl)
      rw [← hm.advance]
      exact .lastValue_closed hopen hnext
  | @values ts mid rest e v h hminus hlater ih₁ ih₂ =>
    intro hrest
    obtain ⟨m, hm, hrun⟩ := run_of_read (p := .lowest) (ih₁ hts) (Or.inl Nat.zero_lt_one)
      (Nat.zero_le 1) (loose_of_begins hlater.begins hminus)
    have hvalue := ih₂ (fun u hu => hts u (h.suffix.subset hu)) hrest
    obtain ⟨w, t, ds₁, ds₂, hds, hfirst, hlast⟩ := value_cases hvalue
    obtain ⟨rfl, rfl⟩ := List.append_eq_nil_iff.mp hds.symm
    have hstart : (current (TokenStream.mk mid stop)).kind.startsExpression := by
      obtain ⟨t, ht, hk⟩ := hlater.begins
      obtain ⟨us, rfl⟩ := List.head?_eq_some_iff.mp ht
      exact hk
    have hne : ¬ ((current (TokenStream.mk mid stop)).kind = .semicolon ∨
        (current (TokenStream.mk mid stop)).kind = .eof) := by
      rintro (hk | hk) <;> rw [hk] at hstart <;> contradiction
    have hopen : ¬ ((current m).kind = .semicolon ∨ (current m).kind = .eof) := by
      refine not_or.mpr ⟨hm.semicolon, fun heof => hne (Or.inr ?_)⟩
      rwa [← hm.eof heof]
    have hnext : ¬ ((upcoming m).kind = .semicolon ∨ (upcoming m).kind = .eof) := by
      rwa [upcoming_eq, hm.advance]
    exact .value hrun (.lastValue_step hopen hnext (hm.advance ▸ hfirst) hlast)

end Grammar
end MonkeyFrontend
