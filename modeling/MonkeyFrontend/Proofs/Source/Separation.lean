import Mathlib.Data.List.Chain
import MonkeyFrontend.Proofs.Source.Layout
import MonkeyFrontend.Proofs.Tree.Same

/-! # Which tokens need a gap between them

A row of tokens is written out with a gap before each of them and behind the last, and each gap
may be empty.  The text is cut into these tokens again exactly when no empty gap stands between
two tokens that glue (`tokenize_write_iff`).

What can go wrong is that a token does not stop where it ends.  So the argument is about one
token and what is written behind it (`stops_write_iff`); a cut that gives back the tokens has no
choice where it puts them, because a gap ends where a token begins (`Cuts.cons_iff`).
-/
namespace MonkeyFrontend

/-- A run of characters that separate tokens.  It may be empty. -/
abbrev Gap := { cs : List Char // ∀ c ∈ cs, isGap c }

/-- **A token to be written**, with the gap before it.  Its text spells its kind. -/
structure Piece where
  gap : Gap
  kind : Kind
  word : String
  spells : Spells kind word

namespace Piece

/-- The token of a piece, wherever it is written. -/
def token (p : Piece) : Token := ⟨p.kind, p.word, Position.unknown⟩

/-- The text of some pieces and of the gap behind them. -/
def write : List Piece → Gap → List Char
  | [], last => last.val
  | p :: ps, last => p.gap.val ++ p.word.toList ++ write ps last

end Piece

/-- **Two tokens glue** when nothing stands between them: two runs of letters, two runs of
digits, and the tokens `=` and `!` before an equals sign. -/
inductive Glue (v w : String) : Prop where
  | letters : (∀ c ∈ v.toList, isLetter c) → (∀ c ∈ w.toList, isLetter c) → Glue v w
  | digits : (∀ c ∈ v.toList, isDigit c) → (∀ c ∈ w.toList, isDigit c) → Glue v w
  | equals : v = "=" ∨ v = "!" → w.toList.head? = some '=' → Glue v w

/-- **No empty gap stands between tokens that glue.** -/
def Separated (ps : List Piece) : Prop :=
  ps.IsChain fun p q => q.gap.val = [] → ¬ Glue p.word q.word

/-! ## Where a token stops -/

/-- What spells a token is a run of letters, a run of digits, or begins with neither. -/
theorem Spells.run_cases {k : Kind} {w : String} (h : Spells k w) :
    (∀ c ∈ w.toList, isLetter c) ∨ (∀ c ∈ w.toList, isDigit c) ∨
      ∀ c ∈ w.toList.head?, ¬ isLetter c ∧ ¬ isDigit c := by
  cases h with
  | keyword hmem => exact Or.inl (letters_of_keyword hmem).2
  | name _ hall => exact Or.inl hall
  | number _ hall => exact Or.inr (Or.inl hall)
  | symbol hmem =>
    obtain ⟨c, hl, hd, hw⟩ := symbol_cases hmem
    refine Or.inr (Or.inr fun x hx => ?_)
    obtain rfl : c = x := by rcases hw with ⟨hw, _⟩ | ⟨hw, _⟩ <;> simpa [hw] using hx
    exact ⟨hl, hd⟩
  | @other c _ hl hd _ =>
    refine Or.inr (Or.inr fun x hx => ?_)
    obtain rfl : c = x := by simpa using hx
    exact ⟨hl, hd⟩

/-- Every token stops before a gap and at the end of a text. -/
theorem stops_gap {w : String} {rest : List Char} (h : ∀ c ∈ rest.head?, isGap c) :
    Stops w rest where
  letters _ c hc hletter := not_isGap_of_isLetter hletter (h c hc)
  digits _ c hc hdigit := not_isGap_of_isDigit hdigit (h c hc)
  symbol _ heq := absurd (h '=' heq) (by decide)

/-- A token stops before another one that follows at once exactly when they do not glue. -/
theorem stops_word_iff {v w : String} {k : Kind} (hw : Spells k w) (rest : List Char) :
    Stops v (w.toList ++ rest) ↔ ¬ Glue v w := by
  obtain ⟨d, ds, hlist⟩ : ∃ d ds, w.toList = d :: ds :=
    List.exists_cons_of_ne_nil (by simpa using hw.ne_empty)
  have hd : d ∈ w.toList.head? := by
    rw [hlist]
    rfl
  have hhead : (w.toList ++ rest).head? = some d := by
    rw [hlist]
    rfl
  constructor
  · intro hstop hglue
    cases hglue with
    | letters hv hletters =>
      exact hstop.letters hv d hhead (hletters d (List.mem_of_mem_head? hd))
    | digits hv hdigits => exact hstop.digits hv d hhead (hdigits d (List.mem_of_mem_head? hd))
    | equals hv heq => exact hstop.symbol hv (hhead.trans (hd.symm.trans heq))
  · intro hglue
    refine ⟨fun hv c hc hletter => ?_, fun hv c hc hdigit => ?_, fun hv heq => ?_⟩
    · obtain rfl : c = d := Option.mem_unique hc hhead
      rcases hw.run_cases with hall | hall | hnone
      · exact hglue (.letters hv hall)
      · exact not_isLetter_of_isDigit (hall c (List.mem_of_mem_head? hd)) hletter
      · exact (hnone c hd).1 hletter
    · obtain rfl : c = d := Option.mem_unique hc hhead
      rcases hw.run_cases with hall | hall | hnone
      · exact not_isLetter_of_isDigit hdigit (hall c (List.mem_of_mem_head? hd))
      · exact hglue (.digits hv hall)
      · exact (hnone c hd).2 hdigit
    · exact hglue (.equals hv (hd.trans (hhead.symm.trans heq)))

/-- **Where a token stops in a written text.** -/
theorem stops_write_iff (v : String) (ps : List Piece) (last : Gap) :
    Stops v (Piece.write ps last) ↔ ∀ q ∈ ps.head?, q.gap.val = [] → ¬ Glue v q.word := by
  cases ps with
  | nil => exact iff_of_true (stops_gap fun c hc => last.2 c (List.mem_of_mem_head? hc)) nofun
  | cons q ps =>
    have hone : (∀ x ∈ (q :: ps).head?, x.gap.val = [] → ¬ Glue v x.word) ↔
        (q.gap.val = [] → ¬ Glue v q.word) := by simp
    rw [hone, Piece.write, List.append_assoc]
    by_cases hgap : q.gap.val = []
    · rw [hgap, List.nil_append, stops_word_iff q.spells]
      exact ⟨fun h _ => h, fun h => h rfl⟩
    · refine iff_of_true (stops_gap fun c hc => ?_) fun hnil => absurd hnil hgap
      rw [List.head?_append_of_ne_nil _ hgap] at hc
      exact q.gap.2 c (List.mem_of_mem_head? hc)

/-! ## Cuts of a written text -/

/-- A gap ends where a token begins, so a text has only one gap before a given token. -/
theorem gap_unique {gap gap' w tail tail' : List Char} (hgap : ∀ c ∈ gap, isGap c)
    (hgap' : ∀ c ∈ gap', isGap c) (hw : ∀ c ∈ w, ¬ isGap c) (hne : w ≠ [])
    (h : gap ++ w ++ tail = gap' ++ w ++ tail') : gap = gap' ∧ tail = tail' := by
  have hhead : ∀ rest, ∀ c ∈ (w ++ rest).head?, ¬ isGap c := by
    intro rest c hc
    rw [List.head?_append_of_ne_nil _ hne] at hc
    exact hw c (List.mem_of_mem_head? hc)
  have hsame : gap = gap' := by
    rw [← takeWhile_run hgap (hhead tail), ← List.append_assoc, h, List.append_assoc]
    exact takeWhile_run hgap' (hhead tail')
  subst hsame
  exact ⟨rfl, List.append_cancel_left h⟩

/-- A cut of a text that begins with a piece gives this piece as the first token exactly when
the piece stops there, and gives the others as it cuts the rest. -/
theorem Cuts.cons_iff {before tail : List Char} {us : List Token} (p : Piece) :
    (∃ ts stop, Cuts before (p.gap.val ++ p.word.toList ++ tail) ts stop ∧
        ts.map Token.bare = p.token :: us) ↔
      Stops p.word tail ∧ ∃ ts stop,
        Cuts (before ++ p.gap.val ++ p.word.toList) tail ts stop ∧ ts.map Token.bare = us := by
  constructor
  · rintro ⟨ts, stop, hcut, hts⟩
    generalize htext : p.gap.val ++ p.word.toList ++ tail = text at hcut
    cases hcut with
    | gap => contradiction
    | @token _ gap k w rest ts _ hgap hspell hstop hrest =>
      obtain ⟨htoken, hus⟩ := List.cons.inj hts
      obtain rfl : w = p.word := congrArg Token.literal htoken
      have hne : p.word.toList ≠ [] := by simpa using hspell.ne_empty
      obtain ⟨rfl, rfl⟩ := gap_unique p.gap.2 hgap hspell.not_isGap hne htext
      exact ⟨hstop, ts, stop, hrest, hus⟩
  · rintro ⟨hstop, ts, stop, hcut, hts⟩
    exact ⟨_, stop, .token p.gap.2 p.spells hstop hcut, by rw [List.map_cons, hts]; rfl⟩

/-- **A written text is cut into its tokens exactly when they are separated.** -/
theorem cuts_write_iff (before : List Char) (ps : List Piece) (last : Gap) :
    (∃ ts stop, Cuts before (Piece.write ps last) ts stop ∧
      ts.map Token.bare = ps.map Piece.token) ↔ Separated ps := by
  induction ps generalizing before with
  | nil => exact iff_of_true ⟨_, _, .gap last.2, rfl⟩ .nil
  | cons p ps ih =>
    rw [Piece.write, List.map_cons, Cuts.cons_iff, ih, stops_write_iff, Separated, Separated,
      List.isChain_cons]

/-- **Writing tokens out and cutting the text again gives the same tokens back exactly when
nothing glues**, whatever gaps are chosen. -/
theorem tokenize_write_iff (ps : List Piece) (last : Gap) :
    (tokenize (String.ofList (Piece.write ps last))).map Token.bare =
        ps.map Piece.token ++ [Token.eof .unknown] ↔ Separated ps := by
  have hcut := TokenStream.cuts_ofSource (String.ofList (Piece.write ps last))
  rw [String.toList_ofList] at hcut
  have hend : ∀ stop, (Token.eof stop).bare = Token.eof .unknown := fun _ => rfl
  rw [tokenize, TokenStream.toList, List.map_append, List.map_singleton, hend,
    List.append_cancel_right_eq, ← cuts_write_iff [] ps last]
  constructor
  · intro hts
    exact ⟨_, _, hcut, hts⟩
  · rintro ⟨us, stop, hcut', hus⟩
    have hstream := hcut.ofCursor.symm.trans hcut'.ofCursor
    obtain rfl : _ = us := congrArg TokenStream.ahead hstream
    exact hus

end MonkeyFrontend
