import Mathlib.Data.List.Chain
import MonkeyFrontend.Proofs.Parser.Exact
import MonkeyFrontend.Proofs.Source.Layout
import MonkeyFrontend.Proofs.Tree.Plain

/-! # Parsing the canonical text

The text of a program without conditionals and functions is parsed to the same program
(`Parser.parse_render`).  The proof lays the text out from its end: behind every piece stands
a text that is already cut and derived, and the piece puts its token, and its rule of the
grammar, in front of it.
-/
namespace MonkeyFrontend

open Grammar

/-! ## The characters of the text -/

theorem Expr.toList_render_unary (t : Token) (o : String) (e : Expr) :
    (Expr.unary t o (some e)).render.toList = '(' :: (o.toList ++ (e.render.toList ++ [')'])) := by
  simp [Expr.render, Expr.renderOption]

theorem Expr.toList_render_binary (t : Token) (o : String) (l r : Expr) :
    (Expr.binary t l o (some r)).render.toList =
      '(' :: (l.render.toList ++ ' ' :: (o.toList ++ ' ' :: (r.render.toList ++ [')']))) := by
  simp [Expr.render, Expr.renderOption]

theorem Stmt.toList_render_letting (t : Token) (i : Identifier) (e : Expr) :
    (Stmt.letting t (some i) (some e)).render.toList = t.literal.toList ++
      ' ' :: (i.name.toList ++ ' ' :: '=' :: ' ' :: (e.render.toList ++ [';'])) := by
  simp [Stmt.render, Identifier.renderOption, Expr.renderOption]

theorem Stmt.toList_render_returning (t : Token) (e : Expr) :
    (Stmt.returning t (some e)).render.toList =
      t.literal.toList ++ ' ' :: (e.render.toList ++ [';']) := by
  simp [Stmt.render, Expr.renderOption]

theorem Expr.Plain.opens {e : Expr} (h : e.Plain) : Opens e.render.toList := by
  cases h with
  | identifier ht hspell | integer ht hspell => exact hspell.opens (by rw [ht]; decide)
  | boolean ht hspell => exact hspell.opens (by rcases ht with ht | ht <;> rw [ht] <;> decide)
  | unary =>
    rw [Expr.toList_render_unary]
    exact ⟨'(', rfl, Or.inr (Or.inr rfl)⟩
  | binary =>
    rw [Expr.toList_render_binary]
    exact ⟨'(', rfl, Or.inr (Or.inr rfl)⟩

theorem Stmt.Plain.opens {s : Stmt} (h : s.Plain) : Opens s.render.toList := by
  cases h with
  | letting ht hspell =>
    rw [Stmt.toList_render_letting]
    exact (hspell.opens (by rw [ht]; decide)).append _
  | returning ht hspell =>
    rw [Stmt.toList_render_returning]
    exact (hspell.opens (by rw [ht]; decide)).append _
  | expression he => exact he.opens

/-- The operators are among the symbols. -/
theorem operator_symbol {n : Nat} {k : Kind} (h : k ∈ operators n) :
    k ∈ Kind.symbols.map Prod.snd := by
  obtain ⟨hn, hrank⟩ := mem_operators.mp h
  have hpos : k.precedence.rank ≠ 0 := hrank ▸ hn
  revert hpos
  cases k <;> decide

/-! ## Laying out the text -/

section

variable {before tail : List Char} {ts : List Token} {stop : Position}

/-- **Laying out an expression.**  In front of a cut text that stands apart from it, the text
of a plain expression is cut into tokens that derive the same expression. -/
theorem Expr.Plain.layout {e : Expr} (he : e.Plain) (hapart : Apart e.render.toList tail)
    (h : Cuts (before ++ e.render.toList) tail ts stop) :
    ∃ us e', Cuts before (e.render.toList ++ tail) us stop ∧
      Derives (.expression 5) us e' ts ∧ e.same e' ∧ NoMinus us := by
  -- from the closing parenthesis back to the opening one, which makes an operand of every
  -- level of what stands between them
  induction he generalizing before tail ts with
  | @identifier t ht hspell =>
    rw [Expr.render] at hapart h ⊢
    refine ⟨_, _, .word hspell (by rw [ht]; decide) hapart h, .identifier ht, ?_, ?_⟩
    · simp [Expr.same, Identifier.same, Token.same_iff]
    · rintro _ ⟨⟩
      simp [ht]
  | @integer t ht hspell hle =>
    rw [Expr.render] at hapart h ⊢
    refine ⟨_, _, .word hspell (by rw [ht]; decide) hapart h, .integer ht hle, ?_, ?_⟩
    · simp [Expr.same, Token.same_iff]
    · rintro _ ⟨⟩
      simp [ht]
  | @boolean t ht hspell =>
    rw [Expr.render] at hapart h ⊢
    have hword : t.kind ∉ Kind.illegal :: Kind.symbols.map Prod.snd := by
      rcases ht with ht | ht <;> rw [ht] <;> decide
    refine ⟨_, _, .word hspell hword hapart h, .boolean ht, ?_, ?_⟩
    · simp [Expr.same, Token.same_iff]
    · rintro _ ⟨⟩
      rcases ht with ht | ht <;> simp [ht]
  | @unary o e ho hspell he ih =>
    rw [Expr.toList_render_unary] at h ⊢
    have hmem : (o.literal, o.kind) ∈ Kind.symbols :=
      hspell.mem_symbols (by rcases ho with ho | ho <;> rw [ho] <;> decide)
    have hend : Cuts (before ++ ['('] ++ o.literal.toList ++ e.render.toList ++ [')']) tail ts
        stop := by simpa using h
    have hclosed := Cuts.sign (k := .rparen) (c := ')') (by decide) (by simp) hend
    obtain ⟨us, e', hoperand, hderives, hsame, _⟩ :=
      ih (apart_cons (by decide) (by decide)) hclosed
    -- no operand begins with an equals sign, which would continue an exclamation sign
    have hoperator := Cuts.piece (.symbol hmem)
      (stops_symbol hmem fun _ => (he.opens.append _).head_ne) hoperand
    have hopened := Cuts.sign (k := .lparen) (c := '(') (by decide) (by simp) hoperator
    simp only [List.cons_append, List.append_assoc, List.nil_append]
    refine ⟨_, _, hopened, .grouped rfl ((Derives.unary ?_ hderives).looser le_rfl (by decide)
      le_rfl) rfl, ?_, ?_⟩
    · exact ho
    · simp [Expr.same, Expr.sameOption, Token.same_iff, hsame]
    · rintro _ ⟨⟩
      simp
  | @binary k o l r ho hspell hl hr ihl ihr =>
    rw [Expr.toList_render_binary] at h ⊢
    obtain ⟨hk, hrank⟩ := mem_operators.mp ho
    have hle : k ≤ 4 := hrank ▸ rank_precedence_le o.kind
    have hmem : (o.literal, o.kind) ∈ Kind.symbols := hspell.mem_symbols (operator_symbol ho)
    have hend : Cuts (before ++ ['('] ++ l.render.toList ++ [' '] ++ o.literal.toList ++ [' '] ++
        r.render.toList ++ [')']) tail ts stop := by simpa using h
    have hclosed := Cuts.sign (k := .rparen) (c := ')') (by decide) (by simp) hend
    obtain ⟨mid, r', hright, hderives, hsame, _⟩ :=
      ihr (apart_cons (by decide) (by decide)) hclosed
    have hoperator := Cuts.piece (.symbol hmem) (stops_symbol hmem fun _ => by simp)
      (hright.skip (c := ' ') (by decide))
    obtain ⟨us, l', hleft, hderives', hsame', _⟩ :=
      ihl (apart_cons (by decide) (by decide)) (hoperator.skip (c := ' ') (by decide))
    have hopened := Cuts.sign (k := .lparen) (c := '(') (by decide) (by simp) hleft
    have hlooser := hderives'.looser (j := k) (by omega) (by omega) le_rfl
    have hlooser' := hderives.looser (j := k + 1) (by omega) (by omega) le_rfl
    simp only [List.cons_append, List.append_assoc, List.nil_append]
    refine ⟨_, _, hopened, .grouped rfl ((Derives.binary ?_ hlooser hlooser').looser le_rfl
      (by omega) (by omega)) rfl, ?_, ?_⟩
    · exact ho
    · simp [Expr.same, Expr.sameOption, Token.same_iff, hsame, hsame']
    · rintro _ ⟨⟩
      simp

/-- Laying out the value of a statement, from the space before it to the semicolon. -/
theorem Expr.Plain.layout_value {e : Expr} (he : e.Plain)
    (h : Cuts (before ++ [' '] ++ e.render.toList ++ [';']) tail ts stop) :
    ∃ us e' s, Cuts before (' ' :: (e.render.toList ++ ';' :: tail)) us stop ∧
      Derives .values us e' (s :: ts) ∧ s.kind = .semicolon ∧ e.same e' := by
  have hclosed := Cuts.sign (k := .semicolon) (c := ';') (by decide) (by simp) h
  obtain ⟨us, e', hvalue, hderives, hsame, _⟩ :=
    he.layout (apart_cons (by decide) (by decide)) hclosed
  refine ⟨us, e', _, hvalue.skip (by decide), .value (hderives.looser le_rfl (by decide) le_rfl) ?_,
    rfl, hsame⟩
  rintro _ ⟨⟩
  simp

/-- **Laying out a statement**, in front of a cut text that stands apart from it and does not
begin with a minus sign. -/
theorem Stmt.Plain.layout {s : Stmt} (hs : s.Plain) (hapart : Apart s.render.toList tail)
    (hnext : NoMinus ts) (h : Cuts (before ++ s.render.toList) tail ts stop) :
    ∃ us s', Cuts before (s.render.toList ++ tail) us stop ∧
      Derives .statement us s' ts ∧ s.alike s' ∧ NoMinus us := by
  cases hs with
  | @letting t i e ht hspell hi hspell' he =>
    rw [Stmt.toList_render_letting] at h ⊢
    have hend : Cuts (before ++ t.literal.toList ++ [' '] ++ i.literal.toList ++ [' '] ++ ['='] ++
        [' '] ++ e.render.toList ++ [';']) tail ts stop := by simpa using h
    obtain ⟨us, e', s, hvalue, hderives, hs, hsame⟩ := he.layout_value hend
    have hassign := Cuts.sign (k := .assign) (c := '=') (by decide) (by simp) hvalue
    have hname := Cuts.word hspell' (by rw [hi]; decide) (apart_cons (by decide) (by decide))
      (hassign.skip (c := ' ') (by decide))
    have hlet := Cuts.word hspell (by rw [ht]; decide) (apart_cons (by decide) (by decide))
      (hname.skip (c := ' ') (by decide))
    simp only [List.cons_append, List.append_assoc, List.nil_append]
    refine ⟨_, _, hlet, .letting_closed ?_ ?_ rfl hderives hs, ?_, ?_⟩
    · exact ht
    · exact hi
    · simp [Stmt.alike, Stmt.same, Identifier.sameOption, Identifier.same, Expr.sameOption,
        Token.same_iff, hsame]
    · rintro _ ⟨⟩
      simp [ht]
  | @returning t e ht hspell he =>
    rw [Stmt.toList_render_returning] at h ⊢
    have hend : Cuts (before ++ t.literal.toList ++ [' '] ++ e.render.toList ++ [';']) tail ts
        stop := by simpa using h
    obtain ⟨us, e', s, hvalue, hderives, hs, hsame⟩ := he.layout_value hend
    have hreturn := Cuts.word hspell (by rw [ht]; decide) (apart_cons (by decide) (by decide))
      hvalue
    simp only [List.cons_append, List.append_assoc, List.nil_append]
    refine ⟨_, _, hreturn, .returning_closed ?_ hderives hs, ?_, ?_⟩
    · exact ht
    · simp [Stmt.alike, Stmt.same, Expr.sameOption, Token.same_iff, hsame]
    · rintro _ ⟨⟩
      simp [ht]
  | @expression t e he =>
    obtain ⟨us, e', hcut, hderives, hsame, hminus⟩ := he.layout hapart h
    have hloosest : Derives (.expression 1) us e' ts := hderives.looser le_rfl (by decide) le_rfl
    obtain ⟨u, us, rfl⟩ : ∃ u vs, us = u :: vs := by
      obtain ⟨u, hu, _⟩ := hderives.begins
      exact ⟨u, us.tail, List.eq_cons_of_mem_head? hu⟩
    refine ⟨_, _, hcut, .expression hloosest hnext, ?_, hminus⟩
    simpa [Stmt.alike, Expr.sameOption] using hsame

end

/-- Whether no two neighbouring statements run together in the text. -/
def Stmt.Separate (ss : List Stmt) : Prop :=
  ss.IsChain fun s s' => Apart s.render.toList s'.render.toList

/-- **Laying out statements** that do not run together, up to the end of the text. -/
theorem Stmt.layout_list {ss : List Stmt} (hplain : ∀ s ∈ ss, s.Plain)
    (hseparate : Stmt.Separate ss) (before : List Char) :
    ∃ us ss' stop, Cuts before (Stmt.renderList ss).toList us stop ∧
      Derives .statements us ss' [] ∧ List.Forall₂ (fun s s' => s.alike s') ss ss' ∧
      NoMinus us := by
  induction ss generalizing before with
  | nil => exact ⟨[], [], _, .gap (by simp [Stmt.renderList]), .no_statements, .nil, nofun⟩
  | cons s ss ih =>
    obtain ⟨hs, hss⟩ := List.forall_mem_cons.mp hplain
    obtain ⟨us, ss', stop, hcut, hderives, halike, hminus⟩ :=
      ih hss hseparate.tail (before ++ s.render.toList)
    have hapart : Apart s.render.toList (Stmt.renderList ss).toList := by
      cases ss with
      | nil => simpa [Stmt.renderList] using apart_nil s.render.toList
      | cons s' ss =>
        rw [Stmt.renderList, String.toList_append]
        have hnext : Apart s.render.toList s'.render.toList :=
          (List.isChain_cons_cons.mp hseparate).1
        exact hnext.append (hss s' List.mem_cons_self).opens.ne_nil _
    obtain ⟨vs, s', hcut', hderives', halike', hminus'⟩ := hs.layout hapart hminus hcut
    rw [Stmt.renderList, String.toList_append]
    exact ⟨vs, s' :: ss', stop, hcut', .statements hderives' hderives, .cons halike' halike,
      hminus'⟩

namespace Parser

/-- **The text of plain statements is parsed to statements that are alike.** -/
theorem parse_renderList {ss : List Stmt} (hplain : ∀ s ∈ ss, s.Plain)
    (hseparate : Stmt.Separate ss) :
    ∃ p, parse (Stmt.renderList ss) = (p, []) ∧
      List.Forall₂ (fun s s' => s.alike s') ss p.statements := by
  obtain ⟨us, ss', stop, hcut, hderives, halike, _⟩ := Stmt.layout_list hplain hseparate []
  have hstream : TokenStream.ofSource (Stmt.renderList ss) = ⟨us, stop⟩ := hcut.ofCursor
  refine ⟨⟨ss'⟩, ?_, halike⟩
  rw [parse_eq_iff_derives, hstream]
  exact hderives

/-- A text without a diagnostic and without conditionals and functions has plain statements. -/
theorem plain_of_parse {source : String} {p : Program} (h : parse source = (p, []))
    (hstraight : p.straight) : ∀ s ∈ p.statements, s.Plain :=
  (parse_eq_iff_derives.mp h).plain (TokenStream.spelled_ofSource source) hstraight

end Parser

/-- The text of a plain expression is parsed to this expression alone. -/
theorem Expr.Plain.parse_alone {e : Expr} (he : e.Plain) :
    ∃ t e', Parser.parse e.render = (⟨[.expression t (some e')]⟩, []) ∧ e.same e' := by
  let s : Stmt := .expression ⟨.eof, "", .start⟩ (some e)
  have hplain : ∀ r ∈ [s], r.Plain := List.forall_mem_singleton.mpr (.expression he)
  obtain ⟨⟨ss⟩, hparse, halike⟩ := Parser.parse_renderList hplain (.singleton s)
  have htext : Stmt.renderList [s] = e.render := by
    simp [s, Stmt.renderList, Stmt.render, Expr.renderOption]
  rw [htext] at hparse
  obtain ⟨s', _, hhead, hnil, rfl⟩ := List.forall₂_cons_left_iff.mp halike
  obtain rfl := List.forall₂_nil_left_iff.mp hnil
  obtain ⟨t, e', rfl, hsame⟩ := Stmt.alike_expression hhead
  exact ⟨t, e', hparse, hsame⟩

/-- **Plain expressions with the same text are the same.** -/
theorem Expr.Plain.same_of_render {e f : Expr} (he : e.Plain) (hf : f.Plain)
    (h : e.render = f.render) : e.same f := by
  obtain ⟨t, e', hparse, hsame⟩ := he.parse_alone
  obtain ⟨u, f', hparse', hsame'⟩ := hf.parse_alone
  rw [← h, hparse] at hparse'
  obtain rfl : e' = f' := by
    injection hparse' with hp
    injection hp with hss
    injection hss with hs
    injection hs with _ hv
    exact Option.some.inj hv
  exact Expr.same_trans hsame (Expr.same_symm hsame')

namespace Parser

/-- **Parsing the canonical text.**  A text without a diagnostic that has no conditional and no
function is parsed to a tree whose text, where no two neighbouring statements run together in
it, is parsed to the same tree up to the tokens of expression statements, which has the same
text.  And expressions of such trees that have the same text are the same. -/
theorem parse_render {source : String} {p : Program} (hparse : parse source = (p, []))
    (hstraight : p.straight) :
    (Stmt.Separate p.statements → ∃ p', parse p.render = (p', []) ∧
      List.Forall₂ (fun s s' => s.alike s') p.statements p'.statements ∧
      p'.render = p.render) ∧
    ∀ source' p', parse source' = (p', []) → p'.straight → ∀ e f, p.Holds e → p'.Holds f →
      e.render = f.render → e.same f := by
  have hplain : ∀ s ∈ p.statements, s.Plain := plain_of_parse hparse hstraight
  refine ⟨fun hseparate => ?_, fun source' p' hparse' hstraight' e f he hf htext => ?_⟩
  · obtain ⟨p', hparse', halike⟩ := parse_renderList hplain hseparate
    exact ⟨p', hparse', halike, (Stmt.renderList_eq_of_alike halike).symm⟩
  · exact (he.plain hplain).same_of_render (hf.plain (plain_of_parse hparse' hstraight')) htext

/-- A difference and a negation side by side, whose groupings keep them apart. -/
theorem parse_render_neighbours :
    ∃ p, parse "a - b !c" = (p, []) ∧ p.render = "(a - b)(!c)" ∧
      ∃ p', parse "(a - b)(!c)" = (p', []) ∧
        List.Forall₂ (fun s s' => s.alike s') p.statements p'.statements := by
  have htokens : (TokenStream.ofSource "a - b !c").ahead =
      [⟨.ident, "a", ⟨1, 1⟩⟩, ⟨.minus, "-", ⟨1, 3⟩⟩, ⟨.ident, "b", ⟨1, 5⟩⟩,
        ⟨.bang, "!", ⟨1, 7⟩⟩, ⟨.ident, "c", ⟨1, 8⟩⟩] := by decide +kernel
  have hname : ∀ {t : Token} {rest : List Token}, t.kind = .ident →
      Derives (.expression 5) (t :: rest) (.identifier ⟨t, t.literal⟩) rest := .identifier
  have hminus : Derives (.expression 3)
      [⟨.ident, "a", ⟨1, 1⟩⟩, ⟨.minus, "-", ⟨1, 3⟩⟩, ⟨.ident, "b", ⟨1, 5⟩⟩,
        ⟨.bang, "!", ⟨1, 7⟩⟩, ⟨.ident, "c", ⟨1, 8⟩⟩] _
      [⟨.bang, "!", ⟨1, 7⟩⟩, ⟨.ident, "c", ⟨1, 8⟩⟩] :=
    .binary (by decide) ((hname rfl).looser (by decide) (by decide) le_rfl)
      ((hname rfl).looser (by decide) (by decide) le_rfl)
  have hbang : Derives (.expression 5) [⟨.bang, "!", ⟨1, 7⟩⟩, ⟨.ident, "c", ⟨1, 8⟩⟩] _ [] :=
    .unary (Or.inr rfl) (hname rfl)
  have hderives := Derives.statements
    (.expression (hminus.looser le_rfl (by decide) (by decide)) (by simp [NoMinus]))
    (.statements (.expression (hbang.looser le_rfl (by decide) le_rfl) (by simp [NoMinus]))
      .no_statements)
  rw [← htokens] at hderives
  have hparse := parse_eq_iff_derives.mpr hderives
  obtain ⟨p', hparse', halike, _⟩ := (parse_render hparse (by decide)).1 (by
    simp [Stmt.Separate, Apart, Stmt.render, Expr.renderOption, Expr.render, isLetter, isDigit])
  exact ⟨_, hparse, by decide, p', hparse', halike⟩

end Parser
end MonkeyFrontend
