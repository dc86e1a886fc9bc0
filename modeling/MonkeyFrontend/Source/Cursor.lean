import MonkeyFrontend.Source.Lexeme
import MonkeyFrontend.Token.Basic

/-! # Cursors

A cursor stands before a character of a source text and knows how many characters lie
behind it and in which line and column it stands.  It only moves forward, over a number of
characters at a time; at the end of the text it stays.
-/
namespace MonkeyFrontend

/-- A place in a source text: what lies ahead, how much lies behind, and where that is. -/
structure Cursor where
  rest : List Char
  offset : Nat
  position : Position
deriving DecidableEq, Repr

namespace Cursor

/-- The cursor before the first character of a text. -/
def ofSource (source : String) : Cursor := ⟨source.toList, 0, Position.start⟩

/-- Moves over `n` characters, or over all that are left. -/
def skip (c : Cursor) (n : Nat) : Cursor :=
  ⟨c.rest.drop n, c.offset + (c.rest.take n).length, c.position.advance (c.rest.take n)⟩

/-- Whether no character is left. -/
def atEnd (c : Cursor) : Bool := c.rest.isEmpty

/-- The character ahead. -/
def current? (c : Cursor) : Option Char := c.rest.head?

/-- The character after the one ahead. -/
def upcoming? (c : Cursor) : Option Char := c.rest.tail.head?

/-- Moves over one character. -/
def readChar (c : Cursor) : Cursor := c.skip 1

/-- Reads the longest run of characters that satisfy `accepts`. -/
def readWhile (accepts : Char → Bool) (c : Cursor) : String × Cursor :=
  (String.ofList (c.rest.takeWhile accepts), c.skip (c.rest.takeWhile accepts).length)

/-- Moves over the gap ahead. -/
def skipGap (c : Cursor) : Cursor := c.skip (c.rest.takeWhile isGap).length

/-- The token ahead and the cursor behind it; `none` when only a gap is left. -/
def token? (c : Cursor) : Option (Token × Cursor) :=
  match c.skipGap.rest with
  | [] => none
  | ch :: rest =>
    let piece := lexeme ch rest
    some (⟨piece.1, String.ofList piece.2, c.skipGap.position⟩,
      c.skipGap.skip piece.2.length)

/-- The next token and the cursor behind it; at the end of the text the end token, always
at the same place. -/
def nextToken (c : Cursor) : Token × Cursor :=
  c.token?.getD (Token.eof c.skipGap.position, c.skipGap)

theorem skip_zero (c : Cursor) : c.skip 0 = c := by simp [skip, Position.advance_nil]

theorem length_skip_le (c : Cursor) (n : Nat) : (c.skip n).rest.length ≤ c.rest.length := by
  simp [skip]

theorem length_skip_lt {c : Cursor} {n : Nat} (hn : 0 < n) (hc : 0 < c.rest.length) :
    (c.skip n).rest.length < c.rest.length := by
  simp only [skip, List.length_drop]
  omega

/-- Reading a token leaves less text ahead. -/
theorem length_lt_of_token? {c d : Cursor} {t : Token} (h : c.token? = some (t, d)) :
    d.rest.length < c.rest.length := by
  unfold token? at h
  split at h
  · simp at h
  · rename_i ch rest hrest
    simp only [Option.some.injEq, Prod.mk.injEq] at h
    obtain ⟨_, rfl⟩ := h
    refine Nat.lt_of_lt_of_le (length_skip_lt (lexeme_length_pos ch rest) ?_)
      (c.length_skip_le _)
    simp [hrest]

theorem rest_skipGap (c : Cursor) : c.skipGap.rest = c.rest.dropWhile isGap := by
  have hsplit := List.takeWhile_append_dropWhile (p := isGap) (l := c.rest)
  calc c.rest.drop (c.rest.takeWhile isGap).length
      = (c.rest.takeWhile isGap ++ c.rest.dropWhile isGap).drop
          (c.rest.takeWhile isGap).length := by rw [hsplit]
    _ = c.rest.dropWhile isGap := List.drop_left

/-- Behind a gap there is no further gap. -/
theorem skipGap_skipGap (c : Cursor) : c.skipGap.skipGap = c.skipGap := by
  have hnone : c.skipGap.rest.takeWhile isGap = [] := by
    have hhead := List.head?_dropWhile_not isGap c.rest
    rw [rest_skipGap]
    cases hrest : c.rest.dropWhile isGap with
    | nil => rfl
    | cons ch rest =>
      rw [hrest] at hhead
      exact List.takeWhile_cons_of_neg (by simpa using hhead)
  rw [skipGap, hnone]
  exact skip_zero _

/-- The tokens of a text are none of them the end token. -/
theorem kind_ne_eof_of_token? {c d : Cursor} {t : Token} (h : c.token? = some (t, d)) :
    t.kind ≠ .eof := by
  unfold token? at h
  split at h
  · simp at h
  · rename_i ch rest _
    simp only [Option.some.injEq, Prod.mk.injEq] at h
    obtain ⟨rfl, _⟩ := h
    exact lexeme_kind_ne_eof ch rest

/-- When only a gap is left, the end token comes next. -/
theorem nextToken_of_none {c : Cursor} (h : c.token? = none) :
    c.nextToken = (Token.eof c.skipGap.position, c.skipGap) := by
  rw [nextToken, h, Option.getD_none]

theorem nextToken_of_some {c d : Cursor} {t : Token} (h : c.token? = some (t, d)) :
    c.nextToken = (t, d) := by
  rw [nextToken, h, Option.getD_some]

/-- The end token comes only when nothing else is left. -/
theorem token?_eq_none_iff {c : Cursor} : c.token? = none ↔ c.nextToken.1.kind = .eof := by
  constructor
  · intro h
    rw [nextToken_of_none h]
    rfl
  · intro h
    cases hread : c.token? with
    | none => rfl
    | some read =>
      rw [nextToken_of_some hread] at h
      exact absurd h (kind_ne_eof_of_token? hread)

/-- Behind the end token there is the end token again, at the same place. -/
theorem nextToken_stay {c : Cursor} (h : c.nextToken.1.kind = .eof) :
    c.nextToken.2.nextToken = c.nextToken := by
  have hnone := token?_eq_none_iff.mpr h
  have hagain : c.skipGap.token? = none := by
    unfold token? at *
    rwa [skipGap_skipGap]
  rw [nextToken_of_none hnone, nextToken_of_none hagain, skipGap_skipGap]

/-- All tokens ahead, and the cursor behind the last of them and the gap that follows. -/
def tokens (c : Cursor) : List Token × Cursor :=
  match _h : c.token? with
  | none => ([], c.skipGap)
  | some (t, d) =>
    let later := d.tokens
    (t :: later.1, later.2)
termination_by c.rest.length
decreasing_by all_goals exact length_lt_of_token? _h

theorem tokens_of_none {c : Cursor} (h : c.token? = none) : c.tokens = ([], c.skipGap) := by
  rw [tokens]
  split <;> simp_all

theorem tokens_of_some {c d : Cursor} {t : Token} (h : c.token? = some (t, d)) :
    c.tokens = (t :: d.tokens.1, d.tokens.2) := by
  rw [tokens]
  split <;> simp_all

/-- The cursor behind the next `n` tokens; at the end of the text it stays. -/
def skipTokens : Nat → Cursor → Cursor
  | 0, c => c
  | n + 1, c => skipTokens n c.nextToken.2

/-- At most `n` tokens ahead, and the cursor behind them.  The end is looked for only when
fewer than `n` tokens are left. -/
def takeTokens : Nat → Cursor → List Token × Cursor
  | 0, c => ([], c)
  | n + 1, c =>
    match c.token? with
    | none => ([], c.skipGap)
    | some (t, d) =>
      let later := takeTokens n d
      (t :: later.1, later.2)

theorem takeTokens_of_none {c : Cursor} (h : c.token? = none) (n : Nat) :
    c.takeTokens (n + 1) = ([], c.skipGap) := by
  rw [takeTokens, h]

theorem takeTokens_of_some {c d : Cursor} {t : Token} (h : c.token? = some (t, d)) (n : Nat) :
    c.takeTokens (n + 1) = (t :: (d.takeTokens n).1, (d.takeTokens n).2) := by
  rw [takeTokens, h]

end Cursor

end MonkeyFrontend
