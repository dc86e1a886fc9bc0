import MonkeyFrontend.Proofs.Source.Layout
import MonkeyFrontend.Proofs.Text.Balance

/-! # The braces of a text

A brace character is always a token of its own, so a text has as many braces of each sort as it
has tokens of the kind (`Cuts.count_brace`), and its tokens are nested as deeply as its characters
(`Cuts.nesting_eq`), up to any place of the text (`Cuts.exists_prefix`).
-/
namespace MonkeyFrontend

/-- By how much a token changes the depth of braces. -/
def Kind.nesting : Kind → Int
  | lbrace => 1
  | rbrace => -1
  | _ => 0

/-- How many more braces are opened than closed. -/
def nesting (ts : List Token) : Int := (ts.map fun t => t.kind.nesting).sum

theorem nesting_cons (t : Token) (ts : List Token) :
    nesting (t :: ts) = t.kind.nesting + nesting ts := total_cons _ t ts

theorem nesting_append (ts us : List Token) : nesting (ts ++ us) = nesting ts + nesting us :=
  total_append _ ts us

/-- A token that is no brace changes nothing. -/
theorem nesting_plain {t : Token} {k : Kind} (h : t.kind = k) (hk : k.nesting = 0)
    (ts : List Token) : nesting (t :: ts) = nesting ts := by
  rw [nesting_cons, h, hk, Int.zero_add]

theorem nesting_lbrace {t : Token} (h : t.kind = .lbrace) (ts : List Token) :
    nesting (t :: ts) = 1 + nesting ts := by
  rw [nesting_cons, h]
  rfl

theorem nesting_rbrace {t : Token} (h : t.kind = .rbrace) (ts : List Token) :
    nesting (t :: ts) = -1 + nesting ts := by
  rw [nesting_cons, h]
  rfl

/-- **No brace is closed that was not opened**, up to any of the tokens. -/
def Nested (ts : List Token) : Prop := ∀ us, us <+: ts → 0 ≤ nesting us

theorem nested_nil : Nested [] := NeverBelow.nil

/-- A token that closes no brace may stand first. -/
theorem Nested.cons {t : Token} {ts : List Token} (h : Nested ts) (ht : 0 ≤ nesting [t]) :
    Nested (t :: ts) := by
  rw [nesting_cons, nesting, List.map_nil, List.sum_nil, Int.add_zero] at ht
  exact NeverBelow.cons h ht

/-- Tokens that close all their braces may stand before others. -/
theorem Nested.append {ts us : List Token} (h : Nested ts) (hts : nesting ts = 0)
    (h' : Nested us) : Nested (ts ++ us) := NeverBelow.append h hts h'

/-- Braces that match stand between two that match each other. -/
theorem Nested.wrap {ts : List Token} {l r : Token} (h : Nested ts) (hts : nesting ts = 0)
    (hl : l.kind = .lbrace) (hr : r.kind = .rbrace) :
    Nested (l :: ts ++ [r]) ∧ nesting (l :: ts ++ [r]) = 0 := by
  have hopen : l.kind.nesting = 1 := by rw [hl, Kind.nesting]
  have hclose : r.kind.nesting = -1 := by rw [hr, Kind.nesting]
  exact NeverBelow.wrap h hts hopen hclose

/-- The nesting of tokens by their numbers. -/
theorem nesting_eq (ts : List Token) :
    nesting ts =
      ts.countP (fun t => t.kind == .lbrace) - ts.countP (fun t => t.kind == .rbrace) := by
  induction ts with
  | nil => rfl
  | cons t ts ih =>
    rw [nesting_cons, ih, List.countP_cons, List.countP_cons]
    cases t.kind <;> simp [Kind.nesting] <;> omega

/-- The two braces and their kinds. -/
def IsBrace (c : Char) (k : Kind) : Prop := c = '{' ∧ k = .lbrace ∨ c = '}' ∧ k = .rbrace

namespace IsBrace

variable {c : Char} {b : Kind}

theorem mem_symbols (h : IsBrace c b) : (String.singleton c, b) ∈ Kind.symbols := by
  rcases h with ⟨rfl, rfl⟩ | ⟨rfl, rfl⟩ <;> decide

theorem not_isGap (h : IsBrace c b) : ¬ isGap c := by
  rcases h with ⟨rfl, rfl⟩ | ⟨rfl, rfl⟩ <;> decide

theorem not_isLetter (h : IsBrace c b) : ¬ isLetter c := by
  rcases h with ⟨rfl, rfl⟩ | ⟨rfl, rfl⟩ <;> decide

theorem not_isDigit (h : IsBrace c b) : ¬ isDigit c := by
  rcases h with ⟨rfl, rfl⟩ | ⟨rfl, rfl⟩ <;> decide

theorem count_symbol (h : IsBrace c b) :
    ∀ p ∈ Kind.symbols, p.1.toList.count c = if p.2 = b then 1 else 0 := by
  rcases h with ⟨rfl, rfl⟩ | ⟨rfl, rfl⟩ <;> decide

theorem plain_ne (h : IsBrace c b) : .ident ≠ b ∧ .int ≠ b ∧ .illegal ≠ b := by
  rcases h with ⟨-, rfl⟩ | ⟨-, rfl⟩ <;> decide

theorem ne_keyword (h : IsBrace c b) : ∀ p ∈ Kind.keywords, p.2 ≠ b := by
  rcases h with ⟨-, rfl⟩ | ⟨-, rfl⟩ <;> decide

theorem count_gap (h : IsBrace c b) {gap : List Char} (hgap : ∀ d ∈ gap, isGap d) :
    gap.count c = 0 :=
  List.count_eq_zero.mpr fun hmem => h.not_isGap (hgap c hmem)

end IsBrace

/-- A brace stands in the text of its own token and in no other. -/
theorem Spells.count_brace {k b : Kind} {w : String} {c : Char} (h : Spells k w)
    (hc : IsBrace c b) : w.toList.count c = if k = b then 1 else 0 := by
  have hnone : c ∉ w.toList → k ≠ b → w.toList.count c = if k = b then 1 else 0 := by
    intro hmem hk
    rw [List.count_eq_zero.mpr hmem, if_neg hk]
  cases h with
  | keyword hk =>
    have hletters := (letters_of_keyword hk).2
    exact hnone (fun hmem => hc.not_isLetter (hletters c hmem)) (hc.ne_keyword _ hk)
  | name _ hletters =>
    exact hnone (fun hmem => hc.not_isLetter (hletters c hmem)) hc.plain_ne.1
  | number _ hdigits =>
    exact hnone (fun hmem => hc.not_isDigit (hdigits c hmem)) hc.plain_ne.2.1
  | symbol hk => exact hc.count_symbol _ hk
  | @other d _ _ _ hnot =>
    apply hnone _ hc.plain_ne.2.2
    intro hmem
    obtain rfl : c = d := by simpa using hmem
    exact hnot b hc.mem_symbols

/-- **A text has as many braces as brace tokens**, of each sort. -/
theorem Cuts.count_brace {before rest : List Char} {ts : List Token} {stop : Position}
    (h : Cuts before rest ts stop) {c : Char} {b : Kind} (hc : IsBrace c b) :
    rest.count c = ts.countP (fun t => t.kind == b) := by
  induction h with
  | gap hall => rw [hc.count_gap hall, List.countP_nil]
  | token hall hspell _ _ ih =>
    rw [List.count_append, List.count_append, hc.count_gap hall, ih, hspell.count_brace hc,
      List.countP_cons]
    simp only [beq_iff_eq]
    omega

/-- The tokens of a text are nested as its characters are. -/
theorem Cuts.nesting_eq {before rest : List Char} {ts : List Token} {stop : Position}
    (h : Cuts before rest ts stop) : nesting ts = rest.count '{' - rest.count '}' := by
  rw [MonkeyFrontend.nesting_eq, h.count_brace (Or.inl ⟨rfl, rfl⟩),
    h.count_brace (Or.inr ⟨rfl, rfl⟩)]

/-! ## Prefixes of a text -/

/-- How many more braces are opened than closed in a text. -/
def excess (cs : List Char) : Int := cs.count '{' - cs.count '}'

theorem excess_append (cs ds : List Char) : excess (cs ++ ds) = excess cs + excess ds := by
  simp only [excess, List.count_append]
  omega

/-- A part of a text without braces has no braces. -/
theorem excess_of_sublist {cs ds : List Char} (h : cs.Sublist ds)
    (hds : ∀ {c b}, IsBrace c b → ds.count c = 0) : excess cs = 0 := by
  have hopen := h.count_le '{'
  have hclose := h.count_le '}'
  rw [hds (Or.inl ⟨rfl, rfl⟩)] at hopen
  rw [hds (Or.inr ⟨rfl, rfl⟩)] at hclose
  rw [excess]
  omega

theorem excess_gap {gap : List Char} (h : ∀ c ∈ gap, isGap c) : excess gap = 0 :=
  excess_of_sublist (List.Sublist.refl gap) fun hc => hc.count_gap h

/-- The text of a token has the nesting of its kind. -/
theorem Spells.excess_eq {k : Kind} {w : String} (h : Spells k w) :
    excess w.toList = k.nesting := by
  rw [excess, h.count_brace (Or.inl ⟨rfl, rfl⟩), h.count_brace (Or.inr ⟨rfl, rfl⟩)]
  cases k <;> rfl

/-- A brace is spelled by one character. -/
theorem Spells.eq_brace {c : Char} {k : Kind} {w : String} (h : Spells k w) (hc : IsBrace c k) :
    w.toList = [c] := by
  have hone : ∀ p ∈ Kind.symbols, p.2 = k → p.1.toList = [c] := by
    rcases hc with ⟨rfl, rfl⟩ | ⟨rfl, rfl⟩ <;> decide
  have hmem : (w, k) ∈ Kind.symbols :=
    h.mem_symbols (List.mem_map_of_mem (f := Prod.snd) hc.mem_symbols)
  exact hone _ hmem rfl

/-- Up to any of its characters a token with the gap before it has no braces, or it has been
read. -/
theorem excess_of_prefix {gap cs : List Char} {k : Kind} {w : String}
    (hgap : ∀ c ∈ gap, isGap c) (hspell : Spells k w) (h : cs <+: gap ++ w.toList) :
    excess cs = 0 ∨ excess cs = k.nesting := by
  by_cases hk : ∃ c, IsBrace c k
  · obtain ⟨c, hc⟩ := hk
    rw [hspell.eq_brace hc] at h
    rcases List.prefix_concat_iff.mp h with rfl | hbefore
    · right
      rw [excess_append, excess_gap hgap, Int.zero_add, ← hspell.eq_brace hc, hspell.excess_eq]
    · exact Or.inl (excess_of_sublist hbefore.sublist fun hc => hc.count_gap hgap)
  · left
    refine excess_of_sublist h.sublist fun {c b} hc => ?_
    have hne : k ≠ b := by
      rintro rfl
      exact hk ⟨c, hc⟩
    rw [List.count_append, hc.count_gap hgap, hspell.count_brace hc, if_neg hne]

/-- Up to any character a text is nested as its tokens are up to some token. -/
theorem Cuts.exists_prefix {before rest : List Char} {ts : List Token} {stop : Position}
    (h : Cuts before rest ts stop) {cs : List Char} (hcs : cs <+: rest) :
    ∃ us, us <+: ts ∧ nesting us = excess cs := by
  induction h generalizing cs with
  | gap hgap =>
    have hnone := excess_of_sublist hcs.sublist fun hc => hc.count_gap hgap
    exact ⟨[], List.prefix_rfl, hnone.symm⟩
  | @token before gap k w tail ts stop hgap hspell _ _ ih =>
    rcases List.prefix_or_prefix_of_prefix hcs (List.prefix_append _ tail) with hhead | ⟨ds, rfl⟩
    · rcases excess_of_prefix hgap hspell hhead with hnone | hall
      · exact ⟨[], List.nil_prefix, hnone.symm⟩
      · exact ⟨[_], List.prefix_append [_] ts, (Int.add_zero _).trans hall.symm⟩
    · have hds : ds <+: tail := (List.prefix_append_right_inj _).mp hcs
      obtain ⟨us, hus, hnesting⟩ := ih hds
      refine ⟨_ :: us, List.cons_prefix_cons.mpr ⟨rfl, hus⟩, ?_⟩
      rw [nesting_cons, hnesting, excess_append, excess_append, excess_gap hgap, Int.zero_add,
        hspell.excess_eq]

end MonkeyFrontend
