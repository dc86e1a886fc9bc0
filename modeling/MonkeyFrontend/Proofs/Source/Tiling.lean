import MonkeyFrontend.Proofs.Source.Cutting

/-! # The tokens of a text by offsets

A list of tokens tiles a text when each of them can be given an offset such that they stand
there in order, without overlap and as long as they can be, and only gaps lie between them.
The tokens of a text are the one list that tiles it (`tokenize_eq_iff_tiling`).
-/
namespace MonkeyFrontend

/-- A token with the number of characters before it. -/
structure Placed where
  token : Token
  offset : Nat

namespace Placed

/-- How many characters lie before the end of a token. -/
def stop (p : Placed) : Nat := p.offset + p.token.literal.length

/-- Whether a token covers the character behind `i` others. -/
def Covers (p : Placed) (i : Nat) : Prop := p.offset ≤ i ∧ i < p.stop

/-- **A token fits a text** at its offset: its text stands there and spells its kind, it is
as long as it can be, and its line and column are true. -/
structure Fits (text : List Char) (p : Placed) : Prop where
  ne_eof : p.token.kind ≠ .eof
  ne_empty : p.token.literal ≠ ""
  slice : p.token.literal.toList <+: text.drop p.offset
  no_gap : ∀ c ∈ p.token.literal.toList, ¬ isGap c
  spells : Spells p.token.kind p.token.literal
  stops : Stops p.token.literal (text.drop p.stop)
  position : p.token.position = .behind (text.take p.offset)

end Placed

/-- **A tiling of a text** from the offset `start` on: tokens in order and without overlap,
each of which fits, with nothing but gaps outside, and the end token at the end. -/
structure Tiling (text : List Char) (start : Nat) (pieces : List Placed) (last : Placed) :
    Prop where
  fits : ∀ p ∈ pieces, p.Fits text
  start_le : ∀ p ∈ pieces, start ≤ p.offset
  ordered : pieces.Pairwise fun p q => p.stop ≤ q.offset
  gap_outside : ∀ i c, start ≤ i → text[i]? = some c → (∀ p ∈ pieces, ¬ p.Covers i) → isGap c
  last_kind : last.token.kind = .eof
  last_literal : last.token.literal = ""
  last_offset : last.offset = text.length
  last_position : last.token.position = .behind text

namespace Tiling

variable {text : List Char} {start : Nat} {pieces : List Placed} {p last : Placed}

theorem last_token (h : Tiling text start pieces last) :
    last.token = Token.eof (.behind text) := by
  rw [Token.eof, ← h.last_kind, ← h.last_literal, ← h.last_position]

/-- The tiling of a text where only gaps are left. -/
theorem nil (hgap : ∀ i c, start ≤ i → text[i]? = some c → isGap c) :
    Tiling text start [] ⟨Token.eof (.behind text), text.length⟩ where
  fits := by simp
  start_le := by simp
  ordered := .nil
  gap_outside i c hi hc _ := hgap i c hi hc
  last_kind := rfl
  last_literal := rfl
  last_offset := rfl
  last_position := rfl

/-- A token behind a gap and before a tiling. -/
theorem cons (hp : p.Fits text) (hstart : start ≤ p.offset)
    (hgap : ∀ i c, start ≤ i → i < p.offset → text[i]? = some c → isGap c)
    (h : Tiling text p.stop pieces last) : Tiling text start (p :: pieces) last where
  fits := List.forall_mem_cons.mpr ⟨hp, h.fits⟩
  start_le := by
    have hstop : start ≤ p.stop := Nat.le_trans hstart (Nat.le_add_right _ _)
    exact List.forall_mem_cons.mpr ⟨hstart, fun q hq => Nat.le_trans hstop (h.start_le q hq)⟩
  ordered := List.pairwise_cons.mpr ⟨h.start_le, h.ordered⟩
  gap_outside i c hi hc hout := by
    obtain ⟨hnot, hlater⟩ := List.forall_mem_cons.mp hout
    by_cases hbefore : i < p.offset
    · exact hgap i c hi hbefore hc
    · have hbehind : p.stop ≤ i := Nat.le_of_not_lt fun hlt => hnot ⟨Nat.le_of_not_lt hbefore, hlt⟩
      exact h.gap_outside i c hbehind hc hlater
  last_kind := h.last_kind
  last_literal := h.last_literal
  last_offset := h.last_offset
  last_position := h.last_position

/-- Before the first token of a tiling there is only a gap. -/
theorem gap_before (h : Tiling text start (p :: pieces) last) (i : Nat) (c : Char)
    (hi : start ≤ i) (hlt : i < p.offset) (hc : text[i]? = some c) : isGap c := by
  refine h.gap_outside i c hi hc (List.forall_mem_cons.mpr ⟨fun hcov => ?_, fun q hq hcov => ?_⟩)
  · exact Nat.not_lt.mpr hcov.1 hlt
  · have hle : p.stop ≤ q.offset := (List.pairwise_cons.mp h.ordered).1 q hq
    have hstop : p.offset ≤ p.stop := Nat.le_add_right _ _
    have hq : q.offset ≤ i := hcov.1
    omega

/-- Behind the first token of a tiling there is a tiling. -/
theorem tail (h : Tiling text start (p :: pieces) last) : Tiling text p.stop pieces last where
  fits := (List.forall_mem_cons.mp h.fits).2
  start_le := (List.pairwise_cons.mp h.ordered).1
  ordered := (List.pairwise_cons.mp h.ordered).2
  gap_outside i c hi hc hout := by
    have hstart : start ≤ p.offset := h.start_le p List.mem_cons_self
    have hstop : p.offset ≤ p.stop := Nat.le_add_right _ _
    refine h.gap_outside i c (by omega) hc (List.forall_mem_cons.mpr ⟨fun hcov => ?_, hout⟩)
    exact Nat.not_lt.mpr hi hcov.2
  last_kind := h.last_kind
  last_literal := h.last_literal
  last_offset := h.last_offset
  last_position := h.last_position

end Tiling

/-- A cut gives its tokens the offsets of a tiling. -/
theorem Cuts.exists_tiling {before rest : List Char} {ts : List Token} {stop : Position}
    (h : Cuts before rest ts stop) : ∃ pieces last,
      Tiling (before ++ rest) before.length pieces last ∧ pieces.map Placed.token = ts ∧
        last.token = Token.eof stop := by
  induction h with
  | @gap before rest hgap =>
    refine ⟨[], _, .nil fun i c hi hc => ?_, rfl, rfl⟩
    rw [List.getElem?_append_right hi] at hc
    exact hgap c (List.mem_of_getElem? hc)
  | @token before gap k w tail ts stop hgap hspell hstop _ ih =>
    obtain ⟨pieces, last, htiling, hts, hlast⟩ := ih
    have htext : before ++ (gap ++ w.toList ++ tail) = before ++ gap ++ w.toList ++ tail := by
      simp only [List.append_assoc]
    have hlength : (before ++ gap ++ w.toList).length = (before ++ gap).length + w.length := by
      rw [List.length_append, String.length_toList]
    rw [htext]
    refine ⟨⟨⟨k, w, .behind (before ++ gap)⟩, (before ++ gap).length⟩ :: pieces, last,
      .cons ⟨hspell.ne_eof, hspell.ne_empty, ?_, hspell.not_isGap, hspell, ?_, ?_⟩ ?_ ?_ ?_,
      by rw [List.map_cons, hts], hlast⟩
    · rw [List.append_assoc, List.append_assoc, ← List.append_assoc before, List.drop_left]
      exact List.prefix_append _ _
    · rwa [Placed.stop, ← hlength, List.drop_left]
    · rw [List.append_assoc _ _ tail, List.take_left]
    · simp
    · intro i c hi hlt hc
      rw [List.append_assoc _ _ tail, List.getElem?_append_left hlt,
        List.getElem?_append_right hi] at hc
      exact hgap c (List.mem_of_getElem? hc)
    · rwa [Placed.stop, ← hlength]

/-- A token that fits cuts what lies behind an earlier place in three. -/
theorem Placed.Fits.exists_split {before rest : List Char} {p : Placed}
    (hp : p.Fits (before ++ rest)) (hstart : before.length ≤ p.offset) :
    ∃ gap tail, rest = gap ++ p.token.literal.toList ++ tail ∧
      p.offset = (before ++ gap).length := by
  obtain ⟨tail, htail⟩ := hp.slice
  have hdrop : (before ++ rest).drop p.offset = rest.drop (p.offset - before.length) := by
    rw [List.drop_append, List.drop_of_length_le hstart, List.nil_append]
  rw [hdrop] at htail
  refine ⟨rest.take (p.offset - before.length), tail, ?_, ?_⟩
  · rw [List.append_assoc, htail, List.take_append_drop]
  · have hpos : 0 < p.token.literal.toList.length := by
      rw [List.length_pos_iff]
      simpa using hp.ne_empty
    have hlength : p.token.literal.toList.length + tail.length =
        rest.length - (p.offset - before.length) := by
      rw [← List.length_append, htail, List.length_drop]
    rw [List.length_append, List.length_take]
    omega

/-- The tokens of a tiling are a cut. -/
theorem Tiling.cuts {before rest : List Char} {pieces : List Placed} {last : Placed}
    (h : Tiling (before ++ rest) before.length pieces last) :
    Cuts before rest (pieces.map Placed.token) (.behind (before ++ rest)) := by
  induction pieces generalizing before rest with
  | nil =>
    refine .gap fun c hc => ?_
    obtain ⟨i, hi⟩ := List.getElem?_of_mem hc
    refine h.gap_outside (before.length + i) c (Nat.le_add_right _ _) ?_ (by simp)
    rwa [List.getElem?_append_right (Nat.le_add_right _ _), Nat.add_sub_cancel_left]
  | cons p pieces ih =>
    have hp : p.Fits (before ++ rest) := h.fits p List.mem_cons_self
    obtain ⟨gap, tail, rfl, hoffset⟩ := hp.exists_split (h.start_le p List.mem_cons_self)
    have htext : before ++ (gap ++ p.token.literal.toList ++ tail) =
        before ++ gap ++ p.token.literal.toList ++ tail := by
      simp only [List.append_assoc]
    have hstop : p.stop = (before ++ gap ++ p.token.literal.toList).length := by
      rw [Placed.stop, hoffset, ← String.length_toList, ← List.length_append]
    have hgap : ∀ c ∈ gap, isGap c := by
      intro c hc
      obtain ⟨i, hi⟩ := List.getElem?_of_mem hc
      obtain ⟨hlt, -⟩ := List.getElem?_eq_some_iff.mp hi
      rw [List.length_append] at hoffset
      refine h.gap_before (before.length + i) c (Nat.le_add_right _ _) (by omega) ?_
      rw [List.getElem?_append_right (Nat.le_add_right _ _), Nat.add_sub_cancel_left,
        List.append_assoc, List.getElem?_append_left hlt, hi]
    have hposition : p.token.position = .behind (before ++ gap) := by
      rw [hp.position, htext, List.append_assoc _ _ tail, hoffset, List.take_left]
    have hstops : Stops p.token.literal tail := by
      have := hp.stops
      rwa [htext, hstop, List.drop_left] at this
    have hlater := h.tail
    rw [htext, hstop] at hlater
    rw [htext]
    have hcut := Cuts.token hgap hp.spells hstops (ih hlater)
    rwa [← hposition] at hcut

/-- **The tokens of a text are the one list that tiles it.** -/
theorem tokenize_eq_iff_tiling (source : String) (ts : List Token) :
    tokenize source = ts ↔ ∃ pieces last, Tiling source.toList 0 pieces last ∧
      ts = pieces.map Placed.token ++ [last.token] := by
  rw [tokenize, TokenStream.ofSource, Cursor.ofSource_eq]
  constructor
  · rintro rfl
    obtain ⟨us, stop, hcut⟩ := exists_cuts [] source.toList
    obtain ⟨pieces, last, htiling, rfl, hlast⟩ := hcut.exists_tiling
    refine ⟨pieces, last, htiling, ?_⟩
    rw [hcut.ofCursor, hlast]
    rfl
  · rintro ⟨pieces, last, htiling, rfl⟩
    have hcut : Cuts [] source.toList _ _ := Tiling.cuts htiling
    rw [hcut.ofCursor, htiling.last_token]
    rfl

/-! ## Where tokens stand -/

/-- A place in a text is at most one line and one column further than the text is long. -/
theorem Position.behind_bounds (before : List Char) :
    (0 ≤ (behind before).line ∧ (behind before).line ≤ before.length + 1) ∧
      0 ≤ (behind before).column ∧ (behind before).column ≤ before.length + 1 := by
  have hcount : before.count '\n' ≤ before.length := List.count_le_length
  have hlast : (before.reverse.takeWhile (· ≠ '\n')).length ≤ before.length := by
    rw [← before.length_reverse]
    exact (List.takeWhile_prefix _).length_le
  simp only [behind]
  omega

/-- A token of a text stands behind some first characters of it. -/
theorem exists_behind_of_mem_tokenize {source : String} {t : Token} (ht : t ∈ tokenize source) :
    ∃ n, t.position = .behind (source.toList.take n) := by
  obtain ⟨pieces, last, htiling, htokens⟩ := (tokenize_eq_iff_tiling source _).mp rfl
  rw [htokens, List.mem_append, List.mem_map, List.mem_singleton] at ht
  rcases ht with ⟨p, hp, rfl⟩ | rfl
  · exact ⟨p.offset, (htiling.fits p hp).position⟩
  · refine ⟨source.toList.length, ?_⟩
    rw [List.take_length, htiling.last_position]

/-- The line and the column of a token are bounded by the length of the text. -/
theorem position_le_of_mem_tokenize {source : String} {t : Token} (ht : t ∈ tokenize source) :
    (0 ≤ t.position.line ∧ t.position.line ≤ source.length + 1) ∧
      0 ≤ t.position.column ∧ t.position.column ≤ source.length + 1 := by
  obtain ⟨n, hn⟩ := exists_behind_of_mem_tokenize ht
  have hbounds := Position.behind_bounds (source.toList.take n)
  have hlength : (source.toList.take n).length ≤ source.length := by
    rw [List.length_take, String.length_toList]
    exact Nat.min_le_right _ _
  rw [hn]
  omega

end MonkeyFrontend
