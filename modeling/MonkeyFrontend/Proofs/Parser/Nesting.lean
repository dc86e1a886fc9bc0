import MonkeyFrontend.Proofs.Parser.Grammar
import MonkeyFrontend.Proofs.Source.Braces

/-! # The braces of a phrase

A phrase never closes a brace that it did not open (`Derives.nesting_le`), and a block that the
end of the text closes leaves its brace open.  So a phrase with as many closing braces as opening
ones has no such block, and then it ends with its own last token, which is a semicolon only behind
a statement (`Derives.firm`).
-/
namespace MonkeyFrontend

namespace Grammar

variable {t : Token} {ts us rest : List Token}

theorem nesting_operator {k : Kind} {n : Nat} (h : k ∈ operators n) : k.nesting = 0 := by
  have hrank : k.precedence.rank ≠ 0 := by
    obtain ⟨hn, heq⟩ := mem_operators.mp h
    rwa [heq]
  revert hrank
  cases k <;> decide

/-- A prefix operator and a truth value are no braces. -/
theorem nesting_either {k l : Kind} (h : t.kind = k ∨ t.kind = l) (hk : k.nesting = 0)
    (hl : l.nesting = 0) : nesting (t :: ts) = nesting ts :=
  h.elim (nesting_plain · hk ts) (nesting_plain · hl ts)

/-- **The body of a block**: the statements up to a closing brace or to the end of the text. -/
structure Body (ts : List Token) (ss : List Stmt) (last : List Token) : Prop where
  derives : Derives .statements ts ss last
  closing : ∀ r ∈ last.head?, r.kind = .rbrace

theorem Body.closed {ss : List Stmt} {r : Token} (h : Derives .statements ts ss (r :: rest))
    (hr : r.kind = .rbrace) : Body ts ss (r :: rest) where
  derives := h
  closing := by
    rintro x ⟨⟩
    exact hr

theorem Body.open_end {ss : List Stmt} (h : Derives .statements ts ss []) : Body ts ss [] where
  derives := h
  closing := nofun

/-- **The braces of a phrase** that stands before `rest`.  It closes no brace that it did not open,
and unless the text ends with it, it closes all that it opened.  Behind every opening brace stands
the body of a block. -/
structure Braced (ts rest : List Token) : Prop where
  nested : ∃ front, ts = front ++ rest ∧ Nested front ∧ (rest ≠ [] → nesting front = 0)
  blocks : ∀ l us, l :: us <:+ ts → rest.length ≤ us.length → l.kind = .lbrace →
    ∃ ss last, Body us ss last

namespace Braced

variable {mid : List Token} {k : Kind}

theorem refl (ts : List Token) : Braced ts ts where
  nested := ⟨[], rfl, nested_nil, fun _ => rfl⟩
  blocks l us hsuffix hlength _ := by
    have hle := hsuffix.length_le
    rw [List.length_cons] at hle
    omega

theorem suffix (h : Braced ts rest) : rest <:+ ts := by
  obtain ⟨front, rfl, -⟩ := h.nested
  exact List.suffix_append _ _

/-- One phrase behind the other. -/
theorem trans (h : Braced ts mid) (h' : Braced mid rest) : Braced ts rest where
  nested := by
    obtain ⟨front, rfl, hfront, hclosed⟩ := h.nested
    obtain ⟨back, rfl, hback, hclosed'⟩ := h'.nested
    refine ⟨front ++ back, (List.append_assoc _ _ _).symm, ?_, fun hne => ?_⟩
    · by_cases hnil : back = []
      · subst hnil
        rwa [List.append_nil]
      · exact hfront.append (hclosed (by simp [hnil])) hback
    · rw [nesting_append, hclosed (by simp [hne]), hclosed' hne, Int.zero_add]
  blocks l us hsuffix hlength hl := by
    by_cases hmid : mid.length ≤ us.length
    · exact h.blocks l us hsuffix hmid hl
    · have hle : (l :: us).length ≤ mid.length := by
        rw [List.length_cons]
        omega
      exact h'.blocks l us (List.suffix_of_suffix_length_le hsuffix h.suffix hle) hlength hl

/-- A token that is no brace. -/
theorem plain (ht : t.kind = k) (hk : k.nesting = 0) : Braced (t :: rest) rest where
  nested := by
    have hzero : nesting [t] = 0 := nesting_plain ht hk []
    exact ⟨[t], rfl, nested_nil.cons (Int.le_of_eq hzero.symm), fun _ => hzero⟩
  blocks l us hsuffix hlength hl := by
    obtain ⟨rfl, -⟩ := List.cons.inj (hsuffix.eq_of_length_le (Nat.succ_le_succ hlength))
    rw [← ht, hl] at hk
    contradiction

/-- Two kinds that are no braces. -/
theorem either {l : Kind} (ht : t.kind = k ∨ t.kind = l) (hk : k.nesting = 0)
    (hl : l.nesting = 0) : Braced (t :: rest) rest :=
  ht.elim (plain · hk) (plain · hl)

/-- A block and its closing brace. -/
theorem closed {ss : List Stmt} {l r : Token} (h : Braced ts (r :: rest))
    (hss : Derives .statements ts ss (r :: rest)) (hl : l.kind = .lbrace)
    (hr : r.kind = .rbrace) : Braced (l :: ts) rest where
  nested := by
    obtain ⟨front, rfl, hfront, hclosed⟩ := h.nested
    obtain ⟨hnested, hzero⟩ := hfront.wrap (hclosed (List.cons_ne_nil _ _)) hl hr
    refine ⟨l :: front ++ [r], ?_, hnested, fun _ => hzero⟩
    rw [List.append_assoc, List.singleton_append, List.cons_append]
  blocks l' us hsuffix hlength hl' := by
    rcases List.suffix_cons_iff.mp hsuffix with heq | hinner
    · obtain ⟨rfl, rfl⟩ := List.cons.inj heq
      exact ⟨ss, r :: rest, .closed hss hr⟩
    · by_cases hlast : (r :: rest).length ≤ us.length
      · exact h.blocks l' us hinner hlast hl'
      · -- only the closing brace is left
        have hle : (l' :: us).length ≤ (r :: rest).length := by
          rw [List.length_cons] at hlast ⊢
          rw [List.length_cons]
          omega
        have hrest := List.suffix_of_suffix_length_le hinner h.suffix hle
        obtain ⟨rfl, -⟩ := List.cons.inj (hrest.eq_of_length_le (Nat.succ_le_succ hlength))
        rw [hr] at hl'
        contradiction

/-- A block that the end of the text closes. -/
theorem open_end {ss : List Stmt} {l : Token} (h : Braced ts [])
    (hss : Derives .statements ts ss []) (hl : l.kind = .lbrace) : Braced (l :: ts) [] where
  nested := by
    obtain ⟨front, rfl, hfront, -⟩ := h.nested
    have hopen : nesting [l] = 1 := nesting_lbrace hl []
    exact ⟨l :: front, rfl, hfront.cons (hopen ▸ Int.one_nonneg), fun hne => absurd rfl hne⟩
  blocks l' us hsuffix _ hl' := by
    rcases List.suffix_cons_iff.mp hsuffix with heq | hinner
    · obtain ⟨rfl, rfl⟩ := List.cons.inj heq
      exact ⟨ss, [], .open_end hss⟩
    · exact h.blocks l' us hinner (Nat.zero_le _) hl'

end Braced

/-- **The braces of every phrase match**, up to those that the end of the text closes. -/
theorem Derives.braced {x : Phrase} {v : x.Tree} (h : Derives x ts v rest) : Braced ts rest := by
  induction h with
  | tighter _ _ _ ih | value _ _ ih | expression _ _ ih => exact ih
  | no_alternative | no_statements => exact .refl _
  | values _ _ _ ih₁ ih₂ | statements _ _ ih₁ ih₂ => exact ih₁.trans ih₂
  -- The tokens of these rules are no braces.
  | identifier ht | integer ht _ | no_parameters ht | last_parameter ht => exact .plain ht rfl
  | boolean ht => exact .either ht rfl rfl
  | binary ho _ _ ih₁ ih₂ =>
    exact ih₁.trans ((Braced.plain rfl (nesting_operator ho)).trans ih₂)
  | unary ht _ ih => exact (Braced.either ht rfl rfl).trans ih
  | parameters ht _ ih | alternative ht _ ih | returning_end ht _ ih =>
    exact (Braced.plain ht rfl).trans ih
  | more_parameters hc hi _ ih => exact (Braced.plain hc rfl).trans ((Braced.plain hi rfl).trans ih)
  | grouped hl _ hr ih | returning_closed hl _ hr ih =>
    exact (Braced.plain hl rfl).trans (ih.trans (.plain hr rfl))
  | expression_closed _ hs ih => exact ih.trans (.plain hs rfl)
  | letting_closed ht hi ha _ hs ih =>
    exact (Braced.plain ht rfl).trans ((Braced.plain hi rfl).trans
      ((Braced.plain ha rfl).trans (ih.trans (.plain hs rfl))))
  | letting_end ht hi ha _ ih =>
    exact (Braced.plain ht rfl).trans ((Braced.plain hi rfl).trans
      ((Braced.plain ha rfl).trans ih))
  | conditional ht hl _ hr _ _ ih₁ ih₂ ih₃ =>
    exact (Braced.plain ht rfl).trans ((Braced.plain hl rfl).trans
      (ih₁.trans ((Braced.plain hr rfl).trans (ih₂.trans ih₃))))
  | function ht hl _ _ ih₁ ih₂ =>
    exact (Braced.plain ht rfl).trans ((Braced.plain hl rfl).trans (ih₁.trans ih₂))
  | block_closed hl hss hr ih => exact ih.closed hss hl hr
  | block_end hl hss ih => exact ih.open_end hss hl

/-- **No phrase closes a brace that it did not open.** -/
theorem Derives.nesting_le {x : Phrase} {v : x.Tree} (h : Derives x ts v rest) :
    nesting rest ≤ nesting ts := by
  obtain ⟨front, rfl, hfront, -⟩ := h.braced.nested
  have hle := hfront front List.prefix_rfl
  rw [nesting_append]
  omega

/-- The last token before `rest` is no semicolon. -/
def Firm (ts rest : List Token) : Prop := ∃ t : Token, t.kind ≠ .semicolon ∧ t :: rest <:+ ts

theorem Firm.behind (h : Firm ts rest) (hsuffix : ts <:+ us) : Firm us rest := by
  obtain ⟨t, ht, hts⟩ := h
  exact ⟨t, ht, hts.trans hsuffix⟩

theorem Firm.cons (h : Firm ts rest) : Firm (t :: ts) rest := h.behind (List.suffix_cons t ts)

theorem firm_cons {k : Kind} (ht : t.kind = k) (hk : k ≠ .semicolon) : Firm (t :: rest) rest :=
  ⟨t, ht ▸ hk, List.suffix_rfl⟩

/-- What is known of the last token of a phrase that closes all its braces. -/
def Phrase.Firm (ts rest : List Token) : Phrase → Prop
  | statement | statements => True
  | alternative => rest = ts ∨ Grammar.Firm ts rest
  | _ => Grammar.Firm ts rest

/-- **A phrase that closes all its braces has a last token of its own**, and only a statement has
a semicolon for it. -/
theorem Derives.firm {x : Phrase} {v : x.Tree} (h : Derives x ts v rest)
    (hclosed : nesting ts ≤ nesting rest) : x.Firm ts rest := by
  induction h with
  | no_statements | statements | letting_closed | letting_end | returning_closed | returning_end
  | expression_closed | expression => trivial
  | tighter _ _ _ ih | value _ _ ih => exact ih hclosed
  -- The token of the rule is the last one.
  | identifier ht | integer ht _ | no_parameters ht | last_parameter ht =>
    exact firm_cons ht nofun
  | boolean ht => exact ht.elim (firm_cons · nofun) (firm_cons · nofun)
  | grouped _ h hr _ =>
    exact (firm_cons hr nofun).behind (h.suffix.trans (List.suffix_cons _ _))
  | block_closed _ h hr _ =>
    exact (firm_cons hr nofun).behind (h.suffix.trans (List.suffix_cons _ _))
  | no_alternative => exact Or.inl rfl
  -- A block that the end of the text closes leaves its brace open.
  | block_end hl h _ =>
    have hle := h.nesting_le
    rw [nesting_lbrace hl] at hclosed
    omega
  -- The last part has the last token, and it closes its braces as the whole does.
  | binary ho h₁ h₂ ih₁ ih₂ =>
    have hle := h₁.nesting_le
    rw [nesting_plain rfl (nesting_operator ho)] at hle
    have hlast : Firm _ _ := ih₂ (Int.le_trans hle hclosed)
    exact hlast.cons.behind h₁.suffix
  | values h₁ _ _ _ ih₂ =>
    have hlast : Firm _ _ := ih₂ (Int.le_trans h₁.nesting_le hclosed)
    exact hlast.behind h₁.suffix
  | unary ht _ ih =>
    rw [nesting_either ht rfl rfl] at hclosed
    exact Firm.cons (ih hclosed)
  | parameters ht _ ih =>
    rw [nesting_plain ht rfl] at hclosed
    exact Firm.cons (ih hclosed)
  | more_parameters hc hi _ ih =>
    rw [nesting_plain hc rfl, nesting_plain hi rfl] at hclosed
    exact Firm.cons (Firm.cons (ih hclosed))
  | alternative ht _ ih =>
    rw [nesting_plain ht rfl] at hclosed
    exact Or.inr (Firm.cons (ih hclosed))
  | conditional ht hl h₁ hr h₂ h₃ _ ih₂ ih₃ =>
    have hcondition := h₁.nesting_le
    have hblock := h₂.nesting_le
    rw [nesting_plain hr rfl] at hcondition
    rw [nesting_plain ht rfl, nesting_plain hl rfl] at hclosed
    have hbehind := (List.suffix_cons _ _).trans h₁.suffix
    rcases ih₃ (by omega) with rfl | hlast
    · have hlast : Firm _ _ := ih₂ (by omega)
      exact (hlast.behind hbehind).cons.cons
    · exact ((hlast.behind h₂.suffix).behind hbehind).cons.cons
  | function ht hl h₁ _ _ ih₂ =>
    have hparameters := h₁.nesting_le
    rw [nesting_plain ht rfl, nesting_plain hl rfl] at hclosed
    have hlast : Firm _ _ := ih₂ (Int.le_trans hparameters hclosed)
    exact (hlast.behind h₁.suffix).cons.cons

end Grammar
end MonkeyFrontend
