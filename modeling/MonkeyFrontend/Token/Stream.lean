import MonkeyFrontend.Source.Cursor
import MonkeyFrontend.Token.Supply

/-! # Streams of tokens

A stream stands on a token, its current one, and sees the one after it.  Behind the last
token of a text there is the end token, again and again.
-/
namespace MonkeyFrontend

/-- The tokens from the current one to the last, and the place where the text ends. -/
structure TokenStream where
  ahead : List Token
  stop : Position
deriving DecidableEq, Repr

namespace TokenStream

/-- The stream of the tokens ahead of a cursor. -/
def ofCursor (c : Cursor) : TokenStream :=
  let cut := c.tokens
  ⟨cut.1, cut.2.position⟩

/-- The stream of the tokens of a source text. -/
def ofSource (source : String) : TokenStream := ofCursor (Cursor.ofSource source)

/-- The token that the stream stands on. -/
def current (s : TokenStream) : Token := s.ahead.headD (Token.eof s.stop)

/-- Moves on to the next token, unless the stream stands on the end token. -/
def advance (s : TokenStream) : TokenStream := ⟨s.ahead.tail, s.stop⟩

/-- The token after the current one. -/
def upcoming (s : TokenStream) : Token := s.advance.current

/-- Moves over `n` tokens. -/
def skip (s : TokenStream) (n : Nat) : TokenStream := ⟨s.ahead.drop n, s.stop⟩

/-- How many tokens there are before the end token. -/
def size (s : TokenStream) : Nat := s.ahead.length

/-- The stream on a token before the others; the end token adds nothing to a stream. -/
def push (t : Token) (s : TokenStream) : TokenStream :=
  if t.kind = .eof then s else ⟨t :: s.ahead, s.stop⟩

/-- All tokens from the current one on, with one end token. -/
def toList (s : TokenStream) : List Token := s.ahead ++ [Token.eof s.stop]

theorem size_advance (s : TokenStream) : s.advance.size = s.size - 1 := by
  simp [size, advance]

theorem push_eof {t : Token} (h : t.kind = .eof) (s : TokenStream) : push t s = s := if_pos h

theorem push_of_ne_eof {t : Token} (h : t.kind ≠ .eof) (s : TokenStream) :
    push t s = ⟨t :: s.ahead, s.stop⟩ := if_neg h

theorem ofCursor_of_none {c : Cursor} (h : c.token? = none) :
    ofCursor c = ⟨[], c.skipGap.position⟩ := by
  rw [ofCursor, Cursor.tokens_of_none h]

/-- The tokens ahead of a cursor are the next one and those behind it. -/
theorem ofCursor_eq (c : Cursor) : ofCursor c = push c.nextToken.1 (ofCursor c.nextToken.2) := by
  by_cases h : c.nextToken.1.kind = .eof
  · have hnone := Cursor.token?_eq_none_iff.mpr h
    have hlater := Cursor.token?_eq_none_iff.mpr ((Cursor.nextToken_stay h).symm ▸ h)
    rw [push_eof h, ofCursor_of_none hnone, ofCursor_of_none hlater,
      Cursor.nextToken_of_none hnone, Cursor.skipGap_skipGap]
  · rw [push_of_ne_eof h]
    cases hread : c.token? with
    | none => exact absurd (Cursor.token?_eq_none_iff.mp hread) h
    | some read =>
      obtain ⟨t, d⟩ := read
      rw [Cursor.nextToken_of_some hread, ofCursor, Cursor.tokens_of_some hread, ofCursor]

instance : TokenSupply TokenStream where
  current := current
  upcoming := upcoming
  advance := advance
  size := size
  upcoming_eq _ := rfl
  size_advance := size_advance
  size_pos
    | ⟨[], _⟩, h => absurd rfl h
    | ⟨_ :: _, _⟩, _ => Nat.succ_pos _

end TokenStream

/-- The tokens of a source text, the end token last. -/
def tokenize (source : String) : List Token := (TokenStream.ofSource source).toList

end MonkeyFrontend
