import Mathlib.Data.List.Count
import MonkeyFrontend.Proofs.Parser.Charging
import MonkeyFrontend.Proofs.Text.Wording

/-! # Diagnostics are sound, and none is reported twice

Whatever is reported holds at some token (`Run.reported`).  Together with the charges for
diagnostics this bounds each kind of report by the tokens that can cause it
(`Parser.accounted_parse`).
-/
namespace MonkeyFrontend

open TokenSupply

/-! ## What is reported holds -/

/-- The kinds that an expectation can ask for. -/
def Kind.demanded : Kind → Bool
  | ident | assign | lparen | rparen | lbrace => true
  | _ => false

theorem Kind.mem_of_demanded {k : Kind} (h : k.demanded) :
    k ∈ [ident, assign, lparen, rparen, lbrace] := by
  cases k <;> simp_all [demanded]

/-- What a diagnostic says, of the place `u` where it is found. -/
def Diagnostic.HoldsAt {σ : Type} [TokenSupply σ] (u : σ) : Diagnostic → Prop
  | unexpected wanted found =>
    wanted.demanded ∧ found = (upcoming u).kind ∧ found ≠ wanted
  | noExpression found => found = (current u).kind ∧ found.startsExpression = false
  | badInteger literal =>
    (current u).kind = .int ∧ literal = (current u).literal ∧ Parser.integerValue? literal = none

namespace Parser

section Reported

variable {σ : Type} [TokenSupply σ] {s t : σ} {ds es : List Diagnostic}

/-- Every diagnostic holds at some place ahead. -/
def Reported (s : σ) (ds : List Diagnostic) : Prop := ∀ d ∈ ds, ∃ u, Ahead s u ∧ d.HoldsAt u

theorem reported_nil (s : σ) : Reported s [] := List.forall_mem_nil _

theorem reported_singleton {d : Diagnostic} (h : d.HoldsAt s) : Reported s [d] :=
  List.forall_mem_singleton.mpr ⟨s, .refl s, h⟩

theorem Reported.append (h : Reported s ds) (h' : Reported s es) : Reported s (ds ++ es) :=
  List.forall_mem_append.mpr ⟨h, h'⟩

theorem Reported.of_ahead (hst : Ahead s t) (h : Reported t ds) : Reported s ds := by
  intro d hd
  obtain ⟨u, htu, hu⟩ := h d hd
  exact ⟨u, hst.trans htu, hu⟩

theorem Reported.of_advance (h : Reported (advance s) ds) : Reported s ds :=
  h.of_ahead (.next s)

/-- An expectation that fails is reported where it fails. -/
theorem reported_unmet {wanted : Kind} (hwanted : wanted.demanded)
    (h : (upcoming s).kind ≠ wanted) :
    Reported s [.unexpected wanted (upcoming s).kind] := reported_singleton ⟨hwanted, rfl, h⟩

/-- **Whatever a run reports holds at a place that the run has seen.** -/
theorem Run.reported {c : Construct} {v : c.Value} (h : Run c s v ds t) : Reported s ds := by
  induction h with
  | identifier | integer | boolean | operators_stop | alternative_absent | statements_stop
  | lastValue_stop | lastValue_closed | parameters_none | moreParameters_end =>
    exact reported_nil _
  -- One thing is found.
  | integer_bad hk hn => exact reported_singleton ⟨hk, rfl, hn⟩
  | operand_missing hk => exact reported_singleton ⟨rfl, hk⟩
  | conditional_bare h | function_bare h => exact reported_unmet rfl h
  | letting_bare h => exact reported_unmet rfl h
  | letting_open _ h => exact (reported_unmet rfl h).of_advance
  | braced_missing h => exact reported_unmet rfl h
  | parameters_bare _ h => exact reported_unmet rfl h
  | moreParameters_bare _ h => exact (reported_unmet rfl h).of_advance
  | moreParameters_open _ h => exact reported_unmet rfl h
  -- All is found by one part.
  | expression_missing _ ih | branches_missing _ ih | operand_unary _ _ ih
  | operand_grouped _ _ ih | operand_conditional _ _ ih | operand_function _ _ ih
  | statement_letting _ _ ih | statement_returning _ _ ih | statement_expression _ _ _ ih
  | expressionStatement_closed _ _ ih | expressionStatement _ _ ih => exact ih
  | binary _ ih | unary _ ih | block _ ih | returning _ ih | grouped _ _ ih
  | alternative _ _ ih | function_open _ _ ih | braced _ _ ih | parameters _ _ ih =>
    exact ih.of_advance
  | letting _ _ _ ih => exact ih.of_advance.of_advance.of_advance
  | moreParameters _ _ _ ih => exact ih.of_advance.of_advance
  -- The closing parenthesis is missing behind a part.
  | grouped_open h hk ih =>
    exact ih.of_advance.append ((reported_unmet rfl hk).of_ahead h.ahead.of_advance)
  | conditional_open _ h hk ih =>
    exact ih.of_advance.of_advance.append
      ((reported_unmet rfl hk).of_ahead h.ahead.of_advance.of_advance)
  -- A second part is read behind the first.
  | expression h _ ih₁ ih₂ | branches h _ ih₁ ih₂ | value h _ ih₁ ih₂ =>
    exact ih₁.append (ih₂.of_ahead h.ahead)
  | operators_step _ h _ ih₁ ih₂ | function _ h _ ih₁ ih₂ =>
    exact ih₁.of_advance.append (ih₂.of_ahead h.ahead.of_advance)
  | lastValue_step _ _ h _ ih₁ ih₂ =>
    exact ih₁.of_advance.append (ih₂.of_ahead h.ahead.of_advance)
  | statements_step _ h _ ih₁ ih₂ => exact ih₁.append (ih₂.of_ahead h.ahead.advance)
  | conditional _ h _ _ ih₁ ih₂ =>
    exact ih₁.of_advance.of_advance.append
      (ih₂.of_ahead h.ahead.of_advance.of_advance.advance)

end Reported

end Parser

/-! ## What each kind of report is charged to -/

/-- Whether a diagnostic is an expectation that failed. -/
def Diagnostic.isUnmet : Diagnostic → Bool
  | unexpected _ _ => true
  | _ => false

namespace Levy

/-- Missing expressions are charged to the tokens at which none begins. -/
def ofKind (k : Kind) : Levy where
  counted d := d == .noExpression k
  charged t := t.kind == k
  fine := 0
  missing t _ := by simp [List.countP_singleton]
  number _ _ _ := Nat.zero_le _
  unmet _ _ := Nat.le_refl 0
  opening _ _ := Nat.zero_le _

/-- Bad numbers are charged to the tokens that spell them. -/
def ofNumber (w : String) : Levy where
  counted d := d == .badInteger w
  charged t := t.kind == .int && t.literal == w
  fine := 0
  missing _ _ := Nat.zero_le _
  number t hk _ := by simp [List.countP_singleton, hk]
  unmet _ _ := Nat.le_refl 0
  opening _ _ := Nat.zero_le _

/-- Unmet expectations are charged to the tokens that open a construct. -/
def ofUnmet : Levy where
  counted := Diagnostic.isUnmet
  charged t := t.kind.opens
  fine := 1
  missing _ _ := Nat.zero_le _
  number _ _ _ := Nat.zero_le _
  unmet _ _ := Nat.le_refl 1
  opening t h := by simp [h]

/-- All diagnostics are charged to all tokens. -/
def ofAll : Levy where
  counted _ := true
  charged _ := true
  fine := 1
  missing _ _ := Nat.le_refl 1
  number _ _ _ := Nat.le_refl 1
  unmet _ _ := Nat.le_refl 1
  opening _ _ := Nat.le_refl 1

end Levy

/-! ## The diagnostics of a text -/

/-- **Diagnostics in account with tokens.**  What is reported is so, and every report is charged
to a token that caused it, no token paying for two. -/
structure Accounted (ts : List Token) (ds : List Diagnostic) : Prop where
  /-- There are three shapes of lines. -/
  shape : ∀ line ∈ ds.map Diagnostic.message,
    (∃ wanted found : Kind, line =
      "expected next token to be " ++ wanted.text ++ ", got " ++ found.text ++ " instead") ∨
    (∃ found : Kind, line = "no prefix parse function for " ++ found.text ++ " found") ∨
    ∃ literal, line = "could not parse " ++ literal ++ " as integer"
  /-- Equal lines are equal diagnostics, so that counting these counts lines. -/
  line_count : ∀ d : Diagnostic, (ds.map Diagnostic.message).count d.message = ds.count d
  missing_le : ∀ k, ds.count (.noExpression k) ≤ ts.countP fun t => t.kind == k
  missing_end_le : ds.count (.noExpression .eof) ≤ 1
  missing_start : ∀ k : Kind, k.startsExpression → ds.count (.noExpression k) = 0
  number_le : ∀ w, ds.count (.badInteger w) ≤ ts.countP fun t => t.kind == .int && t.literal == w
  number_long : ∀ w, ds.count (.badInteger w) = 0 ∨
    (∀ c ∈ w.toList, isDigit c) ∧ 4300 < w.length
  unmet_le : ds.countP Diagnostic.isUnmet ≤ ts.countP fun t =>
    t.kind == .letWord || t.kind == .ifWord || t.kind == .functionWord || t.kind == .lparen
  unmet_kinds : ∀ wanted found, .unexpected wanted found ∈ ds →
    wanted ∈ [Kind.ident, .assign, .lparen, .rparen, .lbrace] ∧ found ≠ wanted ∧
      ∃ t ∈ ts, t.kind = found
  total_le : ds.length ≤ ts.length

theorem Diagnostic.message_shape (d : Diagnostic) :
    (∃ wanted found : Kind, d.message =
      "expected next token to be " ++ wanted.text ++ ", got " ++ found.text ++ " instead") ∨
    (∃ found : Kind, d.message = "no prefix parse function for " ++ found.text ++ " found") ∨
    ∃ literal, d.message = "could not parse " ++ literal ++ " as integer" := by
  cases d with
  | unexpected wanted found => exact Or.inl ⟨wanted, found, rfl⟩
  | noExpression found => exact Or.inr (Or.inl ⟨found, rfl⟩)
  | badInteger literal => exact Or.inr (Or.inr ⟨literal, rfl⟩)

theorem Kind.opens_eq (k : Kind) :
    k.opens = (k == .letWord || k == .ifWord || k == .functionWord || k == .lparen) := by
  cases k <;> rfl

namespace TokenStream

/-- A text has one end token. -/
theorem countP_eof {s : TokenStream} (h : s.Spelled) :
    s.toList.countP (fun t => t.kind == .eof) = 1 := by
  rw [toList, List.countP_append]
  have hahead : s.ahead.countP (fun t => t.kind == .eof) = 0 := by
    rw [List.countP_eq_zero]
    intro t ht heof
    exact (h t ht).ne_eof (eq_of_beq heof)
  rw [hahead]
  rfl

/-- Digits are a bad number only if they are too many. -/
theorem long_of_badInteger {s : TokenStream} (h : s.Spelled) {w : String}
    (hd : (Diagnostic.badInteger w).HoldsAt s) :
    (∀ c ∈ w.toList, isDigit c) ∧ 4300 < w.length := by
  obtain ⟨hk, rfl, hnone⟩ := hd
  have hne : (TokenSupply.current s).kind ≠ .eof := by simp [hk]
  have hspells := h (TokenSupply.current s) (by
    rw [ahead_eq_cons hne]
    exact List.mem_cons_self)
  rw [hk] at hspells
  exact ⟨hspells.digits.2, (Parser.integerValue?_eq_none_iff hspells).mp hnone⟩

end TokenStream

namespace Parser

/-- **Diagnostics are sound, and none is reported twice for one token.** -/
theorem accounted_parse (source : String) :
    Accounted (tokenize source) (parse source).2 := by
  obtain ⟨t, hrun⟩ := parse_eq_iff_run.mp (rfl : parse source = ((parse source).1, _))
  have hspelled := TokenStream.spelled_ofSource source
  have hreported := hrun.reported
  have hdue : ∀ L : Levy, L.due (parse source).2 ≤ L.funds (tokenize source) :=
    fun L => L.due_le rfl
  constructor
  case shape =>
    intro line hline
    obtain ⟨d, _, rfl⟩ := List.mem_map.mp hline
    exact d.message_shape
  case line_count => exact fun d => List.count_map_of_injective _ _ Diagnostic.message_injective d
  case missing_le => exact fun k => hdue (.ofKind k)
  case missing_end_le =>
    rw [← TokenStream.countP_eof hspelled]
    exact hdue (.ofKind .eof)
  case missing_start =>
    intro k hk
    rw [List.count_eq_zero]
    intro hd
    obtain ⟨u, _, _, hstart⟩ := hreported _ hd
    rw [hk] at hstart
    contradiction
  case number_le => exact fun w => hdue (.ofNumber w)
  case number_long =>
    intro w
    by_cases hd : .badInteger w ∈ (parse source).2
    · obtain ⟨u, hu, hholds⟩ := hreported _ hd
      exact Or.inr (TokenStream.long_of_badInteger (hspelled.of_ahead hu) hholds)
    · exact Or.inl (List.count_eq_zero.mpr hd)
  case unmet_le =>
    simp only [← Kind.opens_eq]
    exact hdue .ofUnmet
  case unmet_kinds =>
    intro wanted found hd
    obtain ⟨u, hu, hwanted, rfl, hne⟩ := hreported _ hd
    exact ⟨Kind.mem_of_demanded hwanted, hne, upcoming u, TokenStream.current_mem hu.advance, rfl⟩
  case total_le =>
    have hall := hdue .ofAll
    simpa [Levy.due, Levy.funds, Levy.ofAll] using hall

end Parser
end MonkeyFrontend
