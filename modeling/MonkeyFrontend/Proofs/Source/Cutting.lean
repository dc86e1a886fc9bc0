import MonkeyFrontend.Proofs.Source.Spelling
import MonkeyFrontend.Token.Stream

/-! # How a text is cut into tokens

`Cuts` says, without the scanner, how a text falls into gaps and tokens.  A text is cut in
exactly one way, and that is how a cursor reads it (`cuts_iff`).
-/
namespace MonkeyFrontend

/-! ## Lines and columns by what lies behind -/

/-- The place behind a text: one line more than there are line ends, and one column more
than there are characters behind the last of them. -/
def Position.behind (before : List Char) : Position where
  line := 1 + before.count '\n'
  column := 1 + (before.reverse.takeWhile (· ≠ '\n')).length

namespace Position

theorem behind_concat (before : List Char) (c : Char) :
    behind (before ++ [c]) = (behind before).after c := by
  unfold after
  split
  · rename_i h
    subst h
    simp [behind, Int.add_assoc]
  · rename_i h
    simp [behind, h, Int.add_assoc]

/-- Counting on from behind a text is counting the whole. -/
theorem advance_behind (before cs : List Char) :
    (behind before).advance cs = behind (before ++ cs) := by
  induction cs generalizing before with
  | nil => rw [advance_nil, List.append_nil]
  | cons c cs ih =>
    rw [advance_cons, ← behind_concat, ih, List.append_assoc, List.singleton_append]

end Position

/-! ## Cuts -/

/-- **A cut of a text into tokens.**  `Cuts before rest ts stop` says that `rest`, which
stands behind `before`, consists of gaps and of the tokens `ts`, each where it says, and that
the text ends at `stop`. -/
inductive Cuts : List Char → List Char → List Token → Position → Prop where
  | gap {before rest} : (∀ c ∈ rest, isGap c) →
      Cuts before rest [] (Position.behind (before ++ rest))
  | token {before gap k w tail ts stop} : (∀ c ∈ gap, isGap c) → Spells k w → Stops w tail →
      Cuts (before ++ gap ++ w.toList) tail ts stop →
      Cuts before (gap ++ w.toList ++ tail) (⟨k, w, Position.behind (before ++ gap)⟩ :: ts) stop

/-- What spells a token is not empty. -/
theorem Spells.ne_empty {k : Kind} {w : String} (h : Spells k w) : w ≠ "" := by
  cases h with
  | keyword hk =>
    have hall : ∀ p ∈ Kind.keywords, p.1 ≠ "" := by decide
    exact hall _ hk
  | name hne => exact hne
  | number hne => exact hne
  | symbol hk =>
    have hall : ∀ p ∈ Kind.symbols, p.1 ≠ "" := by decide
    exact hall _ hk
  | other => simp

/-- What spells a token contains no gap. -/
theorem Spells.not_isGap {k : Kind} {w : String} (h : Spells k w) : ∀ c ∈ w.toList, ¬ isGap c := by
  cases h with
  | keyword hk =>
    have hall : ∀ p ∈ Kind.keywords, ∀ c ∈ p.1.toList, ¬ isGap c := by
      simp [Kind.keywords, isGap]
    exact hall _ hk
  | name _ hw => exact fun c hc => not_isGap_of_isLetter (hw c hc)
  | number _ hw => exact fun c hc => not_isGap_of_isDigit (hw c hc)
  | symbol hk =>
    have hall : ∀ p ∈ Kind.symbols, ∀ c ∈ p.1.toList, ¬ isGap c := by
      simp [Kind.symbols, isGap]
    exact hall _ hk
  | other hg => simpa using hg

/-- Nothing spells the end of a text. -/
theorem Spells.ne_eof {k : Kind} {w : String} (h : Spells k w) : k ≠ .eof := by
  have hkeywords : ∀ p ∈ Kind.keywords, p.2 ≠ .eof := by decide
  have hsymbols : ∀ p ∈ Kind.symbols, p.2 ≠ .eof := by decide
  cases h with
  | keyword hk => exact hkeywords _ hk
  | symbol hk => exact hsymbols _ hk
  | name | number | other => simp

/-- A text is a gap, or a token stands behind the gap at its head. -/
theorem gap_or_token (text : List Char) : (∀ c ∈ text, isGap c) ∨
    ∃ gap k w tail, text = gap ++ String.toList w ++ tail ∧ (∀ c ∈ gap, isGap c) ∧
      Spells k w ∧ Stops w tail := by
  have hsplit : text.takeWhile isGap ++ text.dropWhile isGap = text :=
    List.takeWhile_append_dropWhile
  have hgap : ∀ c ∈ text.takeWhile isGap, isGap c := fun c hc => List.mem_takeWhile_imp hc
  cases hrest : text.dropWhile isGap with
  | nil =>
    left
    rwa [← hsplit, hrest, List.append_nil]
  | cons c rest =>
    right
    have hc : ¬ isGap c := not_of_mem_head?_dropWhile c (by rw [hrest]; rfl)
    obtain ⟨tail, htail, hspell, hstop⟩ := lexeme_spells hc rest
    refine ⟨text.takeWhile isGap, _, _, tail, ?_, hgap, hspell, hstop⟩
    rw [String.toList_ofList, List.append_assoc, ← htail, ← hrest, hsplit]

namespace Cursor

/-- The cursor between two parts of a text. -/
def between (before rest : List Char) : Cursor := ⟨rest, before.length, .behind before⟩

theorem ofSource_eq (source : String) : ofSource source = between [] source.toList := rfl

/-- Moving over a part of the text puts it behind. -/
theorem skip_between (before cs rest : List Char) :
    (between before (cs ++ rest)).skip cs.length = between (before ++ cs) rest := by
  simp [skip, between, Position.advance_behind]

/-- The gap at the head of a text ends where no gap character follows. -/
theorem skipGap_between {before gap rest : List Char} (hgap : ∀ c ∈ gap, isGap c)
    (hrest : ∀ c ∈ rest.head?, ¬ isGap c) :
    (between before (gap ++ rest)).skipGap = between (before ++ gap) rest := by
  rw [← skip_between, skipGap]
  congr 1
  exact congrArg List.length (takeWhile_run hgap hrest)

theorem token?_of_gap {before rest : List Char} (h : ∀ c ∈ rest, isGap c) :
    (between before rest).token? = none ∧
      (between before rest).skipGap.position = .behind (before ++ rest) := by
  have hskip : (between before rest).skipGap = between (before ++ rest) [] := by
    have hend : (between before (rest ++ [])).skipGap = between (before ++ rest) [] :=
      skipGap_between h (by simp)
    rwa [List.append_nil] at hend
  refine ⟨?_, by rw [hskip]; rfl⟩
  unfold token?
  rw [hskip]
  rfl

theorem token?_of_skipGap {c : Cursor} {ch : Char} {rest : List Char}
    (h : c.skipGap.rest = ch :: rest) :
    c.token? = some (⟨(lexeme ch rest).1, String.ofList (lexeme ch rest).2, c.skipGap.position⟩,
      c.skipGap.skip (lexeme ch rest).2.length) := by
  unfold token?
  split
  · simp_all
  · rename_i x xs hcons
    obtain ⟨rfl, rfl⟩ := List.cons.inj (h.symm.trans hcons)
    rfl

/-- A cursor before a gap and a piece that spells a token and stops reads this token. -/
theorem token?_of_spells {before gap tail : List Char} {k : Kind} {w : String}
    (hgap : ∀ c ∈ gap, isGap c) (hspell : Spells k w) (hstop : Stops w tail) :
    (between before (gap ++ w.toList ++ tail)).token? =
      some (⟨k, w, .behind (before ++ gap)⟩, between (before ++ gap ++ w.toList) tail) := by
  obtain ⟨c, rest, hw⟩ : ∃ c rest, w.toList = c :: rest :=
    List.exists_cons_of_ne_nil (by simpa using hspell.ne_empty)
  have hhead : ¬ isGap c := hspell.not_isGap c (by rw [hw]; exact List.mem_cons_self)
  have hlexeme : lexeme c (rest ++ tail) = (k, w.toList) :=
    lexeme_of_spells hspell hstop (by rw [hw]; rfl)
  have hskip : (between before (gap ++ w.toList ++ tail)).skipGap =
      between (before ++ gap) (w.toList ++ tail) := by
    rw [List.append_assoc]
    refine skipGap_between hgap ?_
    rw [hw]
    rintro x ⟨⟩
    exact hhead
  have hrest : (between before (gap ++ w.toList ++ tail)).skipGap.rest = c :: (rest ++ tail) := by
    rw [hskip, ← List.cons_append, ← hw]
    rfl
  rw [token?_of_skipGap hrest, hskip, hlexeme, String.ofList_toList, skip_between]
  rfl

end Cursor

namespace TokenStream

theorem ofCursor_of_some {c d : Cursor} {t : Token} (h : c.token? = some (t, d)) :
    ofCursor c = ⟨t :: (ofCursor d).ahead, (ofCursor d).stop⟩ := by
  rw [ofCursor_eq, Cursor.nextToken_of_some h, push_of_ne_eof (Cursor.kind_ne_eof_of_token? h)]

end TokenStream

/-- A cut is how a cursor reads the text. -/
theorem Cuts.ofCursor {before rest : List Char} {ts : List Token} {stop : Position}
    (h : Cuts before rest ts stop) :
    TokenStream.ofCursor (.between before rest) = ⟨ts, stop⟩ := by
  induction h with
  | gap hgap =>
    obtain ⟨hnone, hposition⟩ := Cursor.token?_of_gap hgap
    rw [TokenStream.ofCursor_of_none hnone, hposition]
  | token hgap hspell hstop _ ih =>
    rw [TokenStream.ofCursor_of_some (Cursor.token?_of_spells hgap hspell hstop), ih]

/-- Every text can be cut. -/
theorem exists_cuts (before rest : List Char) : ∃ ts stop, Cuts before rest ts stop := by
  rcases gap_or_token rest with hgap | ⟨gap, k, w, tail, hrest, hgap, hspell, hstop⟩
  · exact ⟨_, _, .gap hgap⟩
  · have hpos : 0 < w.toList.length := by
      rw [List.length_pos_iff]
      simpa using hspell.ne_empty
    have hlt : tail.length < rest.length := by
      rw [hrest, List.length_append, List.length_append]
      omega
    obtain ⟨ts, stop, h⟩ := exists_cuts (before ++ gap ++ w.toList) tail
    rw [hrest]
    exact ⟨_, _, .token hgap hspell hstop h⟩
termination_by rest.length

/-- The tokens of a cut are spelled as their kinds say. -/
theorem Cuts.spells {before rest : List Char} {ts : List Token} {stop : Position}
    (h : Cuts before rest ts stop) : ∀ t ∈ ts, Spells t.kind t.literal := by
  induction h with
  | gap => simp
  | token _ hspell _ _ ih => exact List.forall_mem_cons.mpr ⟨hspell, ih⟩

/-- **A text is cut in exactly one way**, and that is how a cursor reads it. -/
theorem cuts_iff {before rest : List Char} {ts : List Token} {stop : Position} :
    Cuts before rest ts stop ↔ TokenStream.ofCursor (.between before rest) = ⟨ts, stop⟩ := by
  refine ⟨Cuts.ofCursor, fun h => ?_⟩
  obtain ⟨us, last, hcut⟩ := exists_cuts before rest
  obtain ⟨rfl, rfl⟩ := TokenStream.mk.inj (h.symm.trans hcut.ofCursor)
  exact hcut

/-- A text that spells a token is cut into this token alone. -/
theorem tokenize_of_spells {k : Kind} {w : String} (h : Spells k w) :
    tokenize w = [⟨k, w, .start⟩, .eof (.behind w.toList)] := by
  have hcut : Cuts [] ([] ++ w.toList ++ []) [⟨k, w, .behind []⟩] (.behind w.toList) := by
    refine .token (List.forall_mem_nil _) h (stops_nil w) ?_
    have hend := @Cuts.gap w.toList [] (List.forall_mem_nil _)
    rwa [List.append_nil] at hend
  rw [List.append_nil, List.nil_append] at hcut
  rw [tokenize, TokenStream.ofSource, Cursor.ofSource_eq, hcut.ofCursor]
  rfl

/-- A text is cut into the tokens that its stream has. -/
theorem TokenStream.cuts_ofSource (source : String) :
    Cuts [] source.toList (ofSource source).ahead (ofSource source).stop := cuts_iff.mpr rfl

end MonkeyFrontend
