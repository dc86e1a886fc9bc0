import MonkeyFrontend.Proofs.Source.Layout

/-! # Texts one behind the other

Where the last token of a text is a semicolon, no token grows over the end of the text: the
tokens of a joined text are those of the first text and behind them those of the second, whose
places are counted on from the end of the first (`TokenStream.ofSource_append`).
-/
namespace MonkeyFrontend

/-! ## Places behind another text -/

namespace Position

/-- A place in a text that begins at `origin`: its line is so many lines further down, and its
column so far to the right only on the first line. -/
def translate (origin p : Position) : Position where
  line := origin.line + (p.line - 1)
  column := if p.line = 1 then origin.column + (p.column - 1) else p.column

theorem translate_start (origin : Position) : origin.translate start = origin := by
  obtain ⟨line, column⟩ := origin
  simp [translate, start]

theorem translate_after (origin : Position) {p : Position} (hp : 1 ≤ p.line) (c : Char) :
    (origin.translate p).after c = origin.translate (p.after c) := by
  unfold after
  split
  · have hline : p.line + 1 ≠ 1 := by omega
    simp only [translate, if_neg hline, Position.mk.injEq, and_true]
    omega
  · simp only [translate]
    split
    · simp only [Position.mk.injEq, true_and]
      omega
    · rfl

theorem one_le_line_after {p : Position} (hp : 1 ≤ p.line) (c : Char) : 1 ≤ (p.after c).line := by
  unfold after
  split
  · exact Int.le_trans hp (Int.le_of_lt (Int.lt_succ _))
  · exact hp

/-- Reading on from a place is reading on from the first one, moved there. -/
theorem translate_advance (origin : Position) {p : Position} (hp : 1 ≤ p.line) (cs : List Char) :
    (origin.translate p).advance cs = origin.translate (p.advance cs) := by
  induction cs generalizing p with
  | nil => rfl
  | cons c cs ih =>
    rw [advance_cons, advance_cons, translate_after origin hp]
    exact ih (one_le_line_after hp c)

theorem behind_append (front cs : List Char) :
    behind (front ++ cs) = (behind front).translate (behind cs) := by
  have hstart : behind cs = start.advance cs := (advance_behind [] cs).symm
  rw [hstart, ← translate_advance _ (by decide), translate_start, advance_behind]

end Position

/-- A token of a text that begins at `origin`. -/
def Token.translate (origin : Position) (t : Token) : Token :=
  ⟨t.kind, t.literal, origin.translate t.position⟩

/-- The tokens of a text are cut in the same way behind another text. -/
theorem Cuts.translate (front : List Char) {before rest : List Char} {ts : List Token}
    {stop : Position} (h : Cuts before rest ts stop) :
    Cuts (front ++ before) rest (ts.map (.translate (.behind front)))
      ((Position.behind front).translate stop) := by
  induction h with
  | gap hgap =>
    rw [← Position.behind_append, ← List.append_assoc]
    exact .gap hgap
  | @token before gap k w tail ts stop hgap hspell hstop _ ih =>
    rw [← List.append_assoc, ← List.append_assoc] at ih
    have hcut := Cuts.token hgap hspell hstop ih
    rw [List.append_assoc front before gap, Position.behind_append] at hcut
    exact hcut

/-! ## Where two texts are joined -/

/-- Whether the last token, if there is one, is a semicolon. -/
def Sealed (ts : List Token) : Prop := ∀ r, [r] <:+ ts → r.kind = .semicolon

theorem Sealed.suffix {ts us : List Token} (h : Sealed ts) (hsuffix : us <:+ ts) : Sealed us :=
  fun r hr => h r (hr.trans hsuffix)

/-- A token that stops before a text stops before a longer one. -/
theorem Stops.append {w : String} {tail : List Char} (h : Stops w tail) (hne : tail ≠ [])
    (more : List Char) : Stops w (tail ++ more) := by
  obtain ⟨c, cs, rfl⟩ := List.exists_cons_of_ne_nil hne
  exact ⟨h.letters, h.digits, h.symbol⟩

/-- A semicolon stops before any text. -/
theorem stops_semicolon {w : String} (h : Spells .semicolon w) (tail : List Char) :
    Stops w tail := by
  have hmem := h.mem_symbols (by decide)
  apply stops_symbol hmem
  rintro (rfl | rfl) <;> exact absurd hmem (by decide)

/-- Nothing is cut from nothing. -/
theorem Cuts.eq_nil {before : List Char} {ts : List Token} {stop : Position}
    (h : Cuts before [] ts stop) : ts = [] := by
  generalize hrest : ([] : List Char) = rest at h
  cases h with
  | gap => rfl
  | token _ hspell =>
    have hw := (List.append_eq_nil_iff.mp (List.append_eq_nil_iff.mp hrest.symm).1).2
    exact absurd (by simpa using hw) hspell.ne_empty

/-- A gap before a cut text. -/
theorem Cuts.skipAll {before gap tail : List Char} {ts : List Token} {stop : Position}
    (hgap : ∀ c ∈ gap, isGap c) (h : Cuts (before ++ gap) tail ts stop) :
    Cuts before (gap ++ tail) ts stop := by
  induction gap generalizing before with
  | nil => rwa [List.append_nil] at h
  | cons c gap ih =>
    obtain ⟨hc, hgap⟩ := List.forall_mem_cons.mp hgap
    apply Cuts.skip hc
    apply ih hgap
    rwa [List.append_assoc, List.singleton_append]

/-- **Cuts one behind the other** are a cut of the joined text, if the first ends with a
semicolon. -/
theorem Cuts.append {before rest more : List Char} {ts us : List Token} {stop last : Position}
    (h : Cuts before rest ts stop) (hsealed : Sealed ts)
    (h' : Cuts (before ++ rest) more us last) : Cuts before (rest ++ more) (ts ++ us) last := by
  induction h with
  | gap hgap => exact .skipAll hgap h'
  | @token before gap k w tail ts stop hgap hspell hstop htail ih =>
    rw [← List.append_assoc, ← List.append_assoc] at h'
    rw [List.append_assoc]
    apply Cuts.token hgap hspell _ (ih (hsealed.suffix (List.suffix_cons _ _)) h')
    by_cases hnil : tail = []
    · -- nothing is left, so the token is the last one
      subst hnil
      obtain rfl := htail.eq_nil
      obtain rfl : k = .semicolon := hsealed _ List.suffix_rfl
      exact stops_semicolon hspell _
    · exact hstop.append hnil more

namespace TokenStream

/-- The tokens of a stream and behind them those of another. -/
def followedBy (s u : TokenStream) : TokenStream := ⟨s.ahead ++ u.ahead, u.stop⟩

/-- A stream of a text that begins at `origin`. -/
def translate (origin : Position) (s : TokenStream) : TokenStream :=
  ⟨s.ahead.map (.translate origin), origin.translate s.stop⟩

/-- **The tokens of a joined text.** -/
theorem ofSource_append {a : String} (h : Sealed (ofSource a).ahead) (b : String) :
    ofSource (a ++ b) =
      (ofSource a).followedBy ((ofSource b).translate (.behind a.toList)) := by
  have hmoved := (cuts_ofSource b).translate a.toList
  rw [List.append_nil] at hmoved
  have hjoined := ((cuts_ofSource a).append h hmoved).ofCursor
  rw [← String.toList_append] at hjoined
  exact hjoined

end TokenStream
end MonkeyFrontend
