import MonkeyFrontend.Token.Stream

/-! # Windows

A window holds the token under examination and the one behind it.  It reads the text only
as far as these two, and moving on reads one token more.  What it still has before it is a
stream of tokens, and moving on in the one is moving on in the other.
-/
namespace MonkeyFrontend

/-- Two neighbouring tokens of a text, with the cursor behind the second.  Once the end
token is reached, it stays. -/
structure Window where
  current : Token
  upcoming : Token
  cursor : Cursor
  upcoming_stay : current.kind = .eof → upcoming = current
  cursor_stay : upcoming.kind = .eof → cursor.nextToken = (upcoming, cursor)

namespace Window

/-- The window on the next two tokens ahead of a cursor. -/
def ofCursor (c : Cursor) : Window where
  current := c.nextToken.1
  upcoming := c.nextToken.2.nextToken.1
  cursor := c.nextToken.2.nextToken.2
  upcoming_stay h := by rw [Cursor.nextToken_stay h]
  cursor_stay := Cursor.nextToken_stay

/-- The window on the first two tokens of a source text. -/
def ofSource (source : String) : Window := ofCursor (Cursor.ofSource source)

/-- Moves on to the next token, which reads the one behind it. -/
def advance (w : Window) : Window where
  current := w.upcoming
  upcoming := w.cursor.nextToken.1
  cursor := w.cursor.nextToken.2
  upcoming_stay h := by rw [w.cursor_stay h]
  cursor_stay := Cursor.nextToken_stay

/-- The tokens that a window still has before it. -/
def toStream (w : Window) : TokenStream :=
  .push w.current (.push w.upcoming (.ofCursor w.cursor))

theorem toStream_ofCursor (c : Cursor) : (ofCursor c).toStream = .ofCursor c := by
  rw [TokenStream.ofCursor_eq c, TokenStream.ofCursor_eq c.nextToken.2]
  rfl

/-- At the end of the text nothing is left before a window but the end token. -/
theorem toStream_of_eof {w : Window} (h : w.current.kind = .eof) :
    w.toStream = ⟨[], w.current.position⟩ ∧ w.current = Token.eof w.current.position := by
  have hup : w.upcoming = w.current := w.upcoming_stay h
  have hcursor := w.cursor_stay (hup ▸ h)
  have hnone := Cursor.token?_eq_none_iff.mpr (by rw [hcursor, hup, h])
  have hcur : Token.eof w.cursor.skipGap.position = w.current := by
    rw [← hup]
    exact congrArg Prod.fst ((Cursor.nextToken_of_none hnone).symm.trans hcursor)
  rw [toStream, TokenStream.push_eof h, TokenStream.push_eof (hup ▸ h),
    TokenStream.ofCursor_of_none hnone, ← hcur]
  exact ⟨rfl, rfl⟩

theorem current_toStream (w : Window) : w.toStream.current = w.current := by
  by_cases h : w.current.kind = .eof
  · obtain ⟨hstream, hcur⟩ := toStream_of_eof h
    rw [hstream, hcur]
    rfl
  · rw [toStream, TokenStream.push_of_ne_eof h]
    rfl

theorem toStream_advance (w : Window) : w.advance.toStream = w.toStream.advance := by
  have hback : w.advance.toStream = .push w.upcoming (.ofCursor w.cursor) := by
    rw [TokenStream.ofCursor_eq w.cursor]
    rfl
  by_cases h : w.current.kind = .eof
  · have hup : w.advance.current = w.current := w.upcoming_stay h
    rw [(toStream_of_eof (hup ▸ h)).1, (toStream_of_eof h).1, hup]
    rfl
  · rw [hback, toStream, TokenStream.push_of_ne_eof h]
    rfl

instance : TokenSupply Window where
  current := current
  upcoming := upcoming
  advance := advance
  size w := w.toStream.size
  upcoming_eq _ := rfl
  size_advance w := by rw [toStream_advance, TokenStream.size_advance]
  size_pos w h := TokenSupply.size_pos w.toStream (by
    rw [← w.current_toStream] at h
    exact h)

end Window

end MonkeyFrontend
