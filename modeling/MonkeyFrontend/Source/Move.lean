import MonkeyFrontend.Source.Cursor

/-! # Moves of a cursor

What a cursor can be asked for, in any order: tokens, runs of characters, single characters,
or a look at what is ahead.  No request fails, and none goes back.
-/
namespace MonkeyFrontend

/-- A request to a cursor. -/
inductive Move where
  | nextToken
  | allTokens
  | takeTokens (n : Nat)
  | skipGap
  | readWhile (accepts : Char → Bool)
  | readChar
  | seeUpcoming
  | seeEnd

/-- What a cursor answers. -/
inductive Sight where
  | nothing
  | token (t : Token)
  | tokens (ts : List Token)
  | run (s : String)
  | character (c : Option Char)
  | truth (b : Bool)
deriving DecidableEq, Repr

namespace Cursor

/-- Answers a request and moves on accordingly. -/
def perform (c : Cursor) : Move → Sight × Cursor
  | .nextToken =>
    let read := c.nextToken
    (.token read.1, read.2)
  | .allTokens =>
    let read := c.tokens
    (.tokens read.1, read.2)
  | .takeTokens n =>
    let read := c.takeTokens n
    (.tokens read.1, read.2)
  | .skipGap => (.nothing, c.skipGap)
  | .readWhile accepts =>
    let read := c.readWhile accepts
    (.run read.1, read.2)
  | .readChar => (.nothing, c.readChar)
  | .seeUpcoming => (.character c.upcoming?, c)
  | .seeEnd => (.truth c.atEnd, c)

/-- Answers a number of requests, one after the other. -/
def performAll (c : Cursor) : List Move → List Sight × Cursor
  | [] => ([], c)
  | move :: moves =>
    let first := c.perform move
    let later := first.2.performAll moves
    (first.1 :: later.1, later.2)

end Cursor

end MonkeyFrontend
