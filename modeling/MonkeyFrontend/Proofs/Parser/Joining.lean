import MonkeyFrontend.Proofs.Parser.Exact
import MonkeyFrontend.Proofs.Parser.Nesting
import MonkeyFrontend.Proofs.Source.Joining

/-! # Texts that are parsed one behind the other

A program whose braces match and whose last token is a semicolon is parsed in the same way before
any other text, well formed or not, and the other text is parsed as it is alone (`parse_append`).

Every statement but the last one ends before the last token of the first text, so its run sees no
end of the text and is the same before another one (`Run.followedBy`).  The last statement must
end on the semicolon.  It would end elsewhere only behind a phrase that takes the semicolon for
its own last token, and only a block that the end of the text closes is such a phrase.
-/
namespace MonkeyFrontend

open TokenSupply

namespace TokenStream

variable {s : TokenStream}

theorem current_followedBy (h : s.ahead ≠ []) (u : TokenStream) :
    TokenSupply.current (s.followedBy u) = TokenSupply.current s := by
  obtain ⟨ahead, stop⟩ := s
  cases ahead with
  | nil => exact absurd rfl h
  | cons t ts => rfl

theorem advance_followedBy (h : s.ahead ≠ []) (u : TokenStream) :
    TokenSupply.advance (s.followedBy u) = (TokenSupply.advance s).followedBy u := by
  obtain ⟨ahead, stop⟩ := s
  cases ahead with
  | nil => exact absurd rfl h
  | cons t ts => rfl

theorem followedBy_of_nil (h : s.ahead = []) (u : TokenStream) : s.followedBy u = u := by
  rw [followedBy, h, List.nil_append]

theorem ne_nil_of_tail (h : s.ahead.tail ≠ []) : s.ahead ≠ [] := by
  rintro hnil
  rw [hnil] at h
  exact h rfl

theorem upcoming_followedBy (h : s.ahead.tail ≠ []) (u : TokenStream) :
    TokenSupply.upcoming (s.followedBy u) = TokenSupply.upcoming s := by
  rw [upcoming_eq, upcoming_eq, advance_followedBy (ne_nil_of_tail h)]
  exact current_followedBy h u

/-- Streams with the same tokens correspond up to the last but one of these. -/
theorem corresponds_followedBy (u : TokenStream) :
    CorrespondsWhile (fun s : TokenStream => s.ahead.tail ≠ []) (·.followedBy u) id where
  back s h := ne_nil_of_tail (s := TokenSupply.advance s) h
  current _ h := current_followedBy (ne_nil_of_tail h) u
  upcoming _ h := upcoming_followedBy h u
  advance _ h := advance_followedBy (ne_nil_of_tail h) u
  kind _ := rfl
  literal _ := rfl

/-- Streams with the same tokens at other places correspond. -/
theorem corresponds_translate (origin : Position) :
    Corresponds (translate origin) (Token.translate origin) where
  current
    | ⟨[], _⟩ => rfl
    | ⟨_ :: _, _⟩ => rfl
  advance
    | ⟨[], _⟩ => rfl
    | ⟨_ :: _, _⟩ => rfl
  kind _ := rfl
  literal _ := rfl

end TokenStream

namespace Parser

open Grammar

variable {s t : TokenStream} {ds : List Diagnostic}

/-- **A run that ends before the last token does not see the end**: it is the same before other
tokens. -/
theorem Run.followedBy {c : Construct} {v : c.Value} (h : Run c s v ds t)
    (ht : t.ahead.tail ≠ []) (u : TokenStream) :
    Run c (s.followedBy u) v ds (t.followedBy u) :=
  h.map_id_while (TokenStream.corresponds_followedBy u) ht

/-! ## Values up to their semicolon -/

theorem ne_nil_of_kind {k : Kind} (h : (current s).kind = k) (hk : k ≠ .eof) : s.ahead ≠ [] :=
  TokenStream.ahead_ne_nil (h ▸ hk)

theorem tail_ne_nil_of_kind {k : Kind} (h : (upcoming s).kind = k) (hk : k ≠ .eof) :
    s.ahead.tail ≠ [] := ne_nil_of_kind (s := advance s) h hk

/-- What is read up to a semicolon is read in the same way before other tokens. -/
def Construct.Closes (u : TokenStream) : (c : Construct) → TokenStream → c.Value → TokenStream →
    Prop
  | lastValue v, s, w, t => (current s).kind ≠ .semicolon → (current t).kind = .semicolon →
    s.ahead.tail ≠ [] ∧ Run (.lastValue v) (s.followedBy u) w [] (t.followedBy u)
  | _, _, _, _ => True

theorem Run.closes {c : Construct} {v : c.Value} (h : Run c s v ds t) (hds : ds = [])
    (hs : s.Spelled) (u : TokenStream) : c.Closes u s v t := by
  induction h with
  | lastValue_stop hend => exact fun hne hsemicolon => absurd hsemicolon hne
  | @lastValue_closed s v hend hnext =>
    intro _ hsemicolon
    have htail : s.ahead.tail ≠ [] := tail_ne_nil_of_kind hsemicolon nofun
    have hne := TokenStream.ne_nil_of_tail htail
    refine ⟨htail, ?_⟩
    rw [← TokenStream.advance_followedBy hne]
    apply Run.lastValue_closed
    · rwa [TokenStream.current_followedBy hne]
    · rwa [TokenStream.upcoming_followedBy htail]
  | @lastValue_step s ds t es w v next z hend hnext h₁ h₂ _ ih₂ =>
    obtain ⟨rfl, rfl⟩ := List.append_eq_nil_iff.mp hds
    intro _ hsemicolon
    have ht := hs.of_ahead h₁.ahead.of_advance
    obtain ⟨e, rfl, -, hends⟩ := h₁.derived rfl hs.advance
    obtain ⟨hlater, hrun⟩ := ih₂ rfl ht hends.current hsemicolon
    have htail : s.ahead.tail ≠ [] :=
      (TokenStream.corresponds_followedBy u).of_ahead h₁.ahead.of_advance hlater
    have hne := TokenStream.ne_nil_of_tail htail
    refine ⟨htail, ?_⟩
    have hfirst := h₁.followedBy hlater u
    rw [← TokenStream.advance_followedBy hne] at hfirst
    apply Run.lastValue_step _ _ hfirst hrun
    · rwa [TokenStream.current_followedBy hne]
    · rwa [TokenStream.upcoming_followedBy htail]
  | _ => trivial

/-- The values of a let or return statement up to its semicolon. -/
theorem Run.value_followedBy {v : Option Expr} (h : Run .value s v ds t) (hds : ds = [])
    (hs : s.Spelled) (ht : (current t).kind = .semicolon) (u : TokenStream) :
    Run .value (s.followedBy u) v [] (t.followedBy u) := by
  cases h with
  | value h₁ h₂ =>
    obtain ⟨rfl, rfl⟩ := List.append_eq_nil_iff.mp hds
    obtain ⟨e, rfl, -, hends⟩ := h₁.derived rfl hs
    obtain ⟨hlater, hrun⟩ := h₂.closes rfl (hs.of_ahead h₁.ahead) u hends.current ht
    exact .value (h₁.followedBy hlater u) hrun

/-! ## The last statement -/

/-- The rest of a text that closes all its braces and ends with a semicolon. -/
structure Complete (s : TokenStream) : Prop where
  spelled : s.Spelled
  nesting_le : nesting s.ahead ≤ 0
  closed : Sealed s.ahead

namespace Complete

/-- A token that is no brace before the rest. -/
theorem advance (h : Complete s) {k : Kind} (hk : (current s).kind = k) (hne : k ≠ .eof)
    (hplain : k.nesting = 0) : Complete (advance s) where
  spelled := h.spelled.advance
  nesting_le := by
    have hle := h.nesting_le
    rwa [ahead_of_kind hk hne, nesting_plain hk hplain] at hle
  closed := h.closed.suffix (List.tail_suffix _)

/-- No phrase that closes all its braces takes the semicolon for its own last token. -/
theorem not_firm (h : Complete s) : ¬ Firm s.ahead [] := by
  rintro ⟨r, hr, hsuffix⟩
  exact hr (h.closed r hsuffix)

end Complete

/-- The values of the last statement end on its semicolon. -/
theorem Run.value_closed {v : Option Expr} (h : Run .value s v ds t) (hds : ds = [])
    (hs : Complete s) : (current t).kind = .semicolon := by
  obtain ⟨e, rfl, hderives, hend⟩ := h.derived hds hs.spelled
  rcases hend with hsemicolon | heof
  · exact hsemicolon
  · rw [(hs.spelled.of_ahead h.ahead).ahead_eq_nil heof] at hderives
    exact absurd (hderives.firm hs.nesting_le) hs.not_firm

theorem Run.letting_followedBy {x : Stmt} (h : Run .letting s x ds t) (hds : ds = [])
    (hk : (current s).kind = .letWord) (hs : Complete s) (u : TokenStream) :
    t.ahead ≠ [] ∧ Run .letting (s.followedBy u) x [] (t.followedBy u) := by
  cases h with
  | letting_bare | letting_open => contradiction
  | @letting _ _ _ v hname hassign hvalue =>
    have hrest : Complete (advance (advance (advance s))) :=
      ((hs.advance hk nofun rfl).advance hname nofun rfl).advance hassign nofun rfl
    have hclosed := hvalue.value_closed hds hrest
    have hrun := hvalue.value_followedBy hds hrest.spelled hclosed u
    have htail : s.ahead.tail ≠ [] := tail_ne_nil_of_kind hname nofun
    have htail' : (advance s).ahead.tail ≠ [] := tail_ne_nil_of_kind hassign nofun
    have hne := TokenStream.ne_nil_of_tail htail
    have hnext := TokenStream.advance_followedBy hne u
    refine ⟨ne_nil_of_kind hclosed nofun, ?_⟩
    rw [← TokenStream.advance_followedBy (s := advance (advance s)) htail',
      ← TokenStream.advance_followedBy (TokenStream.ne_nil_of_tail htail'), ← hnext] at hrun
    have hjoined := Run.letting (s := s.followedBy u)
      (by rwa [TokenStream.upcoming_followedBy htail])
      (by rwa [hnext, TokenStream.upcoming_followedBy htail']) hrun
    rwa [TokenStream.current_followedBy hne, TokenStream.upcoming_followedBy htail] at hjoined

theorem Run.returning_followedBy {x : Stmt} (h : Run .returning s x ds t) (hds : ds = [])
    (hk : (current s).kind = .returnWord) (hs : Complete s) (u : TokenStream) :
    t.ahead ≠ [] ∧ Run .returning (s.followedBy u) x [] (t.followedBy u) := by
  cases h with
  | returning hvalue =>
    have hne := ne_nil_of_kind hk nofun
    have hrest := hs.advance hk nofun rfl
    have hclosed := hvalue.value_closed hds hrest
    have hrun := hvalue.value_followedBy hds hrest.spelled hclosed u
    rw [← TokenStream.advance_followedBy hne] at hrun
    have hjoined := Run.returning hrun
    rw [TokenStream.current_followedBy hne] at hjoined
    exact ⟨ne_nil_of_kind hclosed nofun, hjoined⟩

theorem Run.expressionStatement_followedBy {x : Stmt} (h : Run .expressionStatement s x ds t)
    (hds : ds = []) (hne : s.ahead ≠ []) (hs : Complete s) (hlast : t.ahead.tail = [])
    (u : TokenStream) :
    t.ahead ≠ [] ∧ Run .expressionStatement (s.followedBy u) x [] (t.followedBy u) := by
  cases h with
  | @expressionStatement_closed _ _ m v h₁ hsemicolon =>
    have htail : m.ahead.tail ≠ [] := tail_ne_nil_of_kind hsemicolon nofun
    have hrun := h₁.followedBy htail u
    have hjoined := Run.expressionStatement_closed hrun
      (by rwa [TokenStream.upcoming_followedBy htail])
    rw [TokenStream.current_followedBy hne,
      TokenStream.advance_followedBy (TokenStream.ne_nil_of_tail htail), hds] at hjoined
    exact ⟨htail, hjoined⟩
  | expressionStatement h₁ _ =>
    -- the expression would take the semicolon
    obtain ⟨e, -, hderives, -⟩ := h₁.derived hds hs.spelled
    have hrest : (advance t).ahead = [] := hlast
    rw [hrest] at hderives
    exact absurd (hderives.firm hs.nesting_le) hs.not_firm

/-- **The last statement of a text ends on its semicolon**, and is read in the same way before
other tokens. -/
theorem Run.last_followedBy {x : Stmt} (h : Run .statement s x ds t) (hds : ds = [])
    (hne : s.ahead ≠ []) (hs : Complete s) (hlast : t.ahead.tail = []) (u : TokenStream) :
    t.ahead ≠ [] ∧ Run .statement (s.followedBy u) x [] (t.followedBy u) := by
  have hcurrent := TokenStream.current_followedBy hne u
  cases h with
  | statement_letting hk h₁ =>
    obtain ⟨ht, hrun⟩ := h₁.letting_followedBy hds hk hs u
    exact ⟨ht, .statement_letting (by rwa [hcurrent]) hrun⟩
  | statement_returning hk h₁ =>
    obtain ⟨ht, hrun⟩ := h₁.returning_followedBy hds hk hs u
    exact ⟨ht, .statement_returning (by rwa [hcurrent]) hrun⟩
  | statement_expression hk hk' h₁ =>
    obtain ⟨ht, hrun⟩ := h₁.expressionStatement_followedBy hds hne hs hlast u
    exact ⟨ht, .statement_expression (by rwa [hcurrent]) (by rwa [hcurrent]) hrun⟩

/-! ## Programs -/

/-- What is read of statements before others. -/
def Construct.Joins (u w : TokenStream) (xs : List Stmt) (es : List Diagnostic) :
    (c : Construct) → TokenStream → c.Value → Prop
  | statements k, s, ss => k = .eof → Complete s →
    Run (.statements .eof) (s.followedBy u) (ss ++ xs) es w
  | _, _, _ => True

/-- **Statements that match their braces and end with a semicolon** are read before any others,
and those are read as they are alone. -/
theorem Run.joins {c : Construct} {v : c.Value} (h : Run c s v ds t) {u w : TokenStream}
    {xs : List Stmt} {es : List Diagnostic} (hrest : Run (.statements .eof) u xs es w)
    (hds : ds = []) (ht : t.ahead = []) : c.Joins u w xs es s v := by
  induction h with
  | statements_stop hend =>
    intro _ _
    rwa [TokenStream.followedBy_of_nil ht]
  | @statements_step k s ds m es' t x ss hend h₁ h₂ _ ih₂ =>
    obtain ⟨rfl, rfl⟩ := List.append_eq_nil_iff.mp hds
    rintro rfl hs
    have hne := TokenStream.ahead_ne_nil fun heof => hend (Or.inr heof)
    have hderives : Derives .statement s.ahead x (advance m).ahead := h₁.derived rfl hs.spelled
    have hothers : Complete (advance m) :=
      ⟨(hs.spelled.of_ahead h₁.ahead).advance, Int.le_trans hderives.nesting_le hs.nesting_le,
        hs.closed.suffix hderives.suffix⟩
    -- a statement either sees no end of the text or is the last one
    have hstatement : m.ahead ≠ [] ∧ Run .statement (s.followedBy u) x [] (m.followedBy u) := by
      by_cases hlast : m.ahead.tail = []
      · exact h₁.last_followedBy rfl hne hs hlast u
      · exact ⟨TokenStream.ne_nil_of_tail hlast, h₁.followedBy hlast u⟩
    obtain ⟨hmne, hrun⟩ := hstatement
    have hlater := ih₂ rfl ht rfl hothers
    rw [← TokenStream.advance_followedBy hmne] at hlater
    refine Run.statements_step ?_ hrun hlater
    rwa [TokenStream.current_followedBy hne]
  | _ => trivial

/-- **Parsing is compositional at a closed statement boundary.**  A text without diagnostics that
has as many opening as closing braces and whose last token, if it has one, is a semicolon may
stand before any text: the statements of that text come behind its own, with their places counted
on from its end, and the diagnostics are those of that text. -/
theorem parse_append {a : String} {p : Program} (h : parse a = (p, []))
    (hbraces : a.toList.count '{' = a.toList.count '}')
    (hlast : ∀ t ∈ (tokenize a).dropLast.getLast?, t.kind = .semicolon) (b : String) :
    parse (a ++ b) =
      (⟨p.statements ++
        Stmt.listMapToken (.translate (.behind a.toList)) (parse b).1.statements⟩,
        (parse b).2) := by
  have hspelled := TokenStream.spelled_ofSource a
  obtain ⟨t, hrun⟩ := parse_eq_iff_run.mp h
  have ht : t.ahead = [] :=
    (hspelled.of_ahead hrun.ahead).ahead_eq_nil (hrun.statements_end.elim id id)
  have hsealed : Sealed (TokenStream.ofSource a).ahead := by
    rintro r ⟨ts, hts⟩
    apply hlast r
    rw [tokenize, TokenStream.toList, List.dropLast_concat, ← hts, List.getLast?_concat]
    exact rfl
  have hnesting : nesting (TokenStream.ofSource a).ahead = 0 := by
    obtain ⟨ts, stop, hcut⟩ := exists_cuts [] a.toList
    have hstream : TokenStream.ofSource a = ⟨ts, stop⟩ := hcut.ofCursor
    rw [hstream, hcut.nesting_eq, hbraces, Int.sub_self]
  -- the other text is read as it is alone, at other places
  obtain ⟨w, hother⟩ := parse_eq_iff_run.mp (rfl : parse b = ((parse b).1, (parse b).2))
  have hmoved := hother.map (TokenStream.corresponds_translate (.behind a.toList))
  rw [parse_eq_iff_run, TokenStream.ofSource_append hsealed]
  have hcomplete : Complete (TokenStream.ofSource a) :=
    ⟨hspelled, Int.le_of_eq hnesting, hsealed⟩
  exact ⟨_, hrun.joins hmoved rfl ht rfl hcomplete⟩

/-- A function before a closing brace that belongs to no block. -/
theorem parse_append_function :
    ∃ p, parse "fn() \x7b a \x7d;" = (p, []) ∧
      parse ("fn() \x7b a \x7d;" ++ "\n\x7d") =
        (⟨p.statements ++
          Stmt.listMapToken (.translate (.behind "fn() \x7b a \x7d;".toList))
            (parse "\n\x7d").1.statements⟩,
          (parse "\n\x7d").2) := by
  have htokens : (TokenStream.ofSource "fn() \x7b a \x7d;").ahead =
      [⟨.functionWord, "fn", ⟨1, 1⟩⟩, ⟨.lparen, "(", ⟨1, 3⟩⟩, ⟨.rparen, ")", ⟨1, 4⟩⟩,
        ⟨.lbrace, "\x7b", ⟨1, 6⟩⟩, ⟨.ident, "a", ⟨1, 8⟩⟩, ⟨.rbrace, "\x7d", ⟨1, 10⟩⟩,
        ⟨.semicolon, ";", ⟨1, 11⟩⟩] := by decide +kernel
  have hname : Derives (.expression 5)
      [⟨.ident, "a", ⟨1, 8⟩⟩, ⟨.rbrace, "\x7d", ⟨1, 10⟩⟩, ⟨.semicolon, ";", ⟨1, 11⟩⟩] _
      [⟨.rbrace, "\x7d", ⟨1, 10⟩⟩, ⟨.semicolon, ";", ⟨1, 11⟩⟩] := .identifier rfl
  have hbody := Derives.statements
    (.expression (hname.looser le_rfl (by decide) le_rfl) (by simp [NoMinus])) .no_statements
  have hfunction : Derives (.expression 5)
      [⟨.functionWord, "fn", ⟨1, 1⟩⟩, ⟨.lparen, "(", ⟨1, 3⟩⟩, ⟨.rparen, ")", ⟨1, 4⟩⟩,
        ⟨.lbrace, "\x7b", ⟨1, 6⟩⟩, ⟨.ident, "a", ⟨1, 8⟩⟩, ⟨.rbrace, "\x7d", ⟨1, 10⟩⟩,
        ⟨.semicolon, ";", ⟨1, 11⟩⟩] _ [⟨.semicolon, ";", ⟨1, 11⟩⟩] :=
    .function rfl rfl (.no_parameters rfl) (.block_closed rfl hbody rfl)
  have hderives := Derives.statements
    (.expression_closed (hfunction.looser le_rfl (by decide) le_rfl) rfl) .no_statements
  rw [← htokens] at hderives
  have hparse := parse_eq_iff_derives.mpr hderives
  refine ⟨_, hparse, parse_append hparse (by decide) ?_ _⟩
  rw [tokenize, TokenStream.toList, List.dropLast_concat, htokens]
  decide

end Parser
end MonkeyFrontend
