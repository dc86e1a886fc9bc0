/-! # Lines

Texts from files and from the keyboard end their lines in one of three ways; reading
unifies them.  Every line ends with a newline, except that the last one may lack it.
-/
namespace MonkeyFrontend.Text

/-- Writes every line end, be it newline, carriage return or both, as one newline. -/
def unifyLineEnds : List Char → List Char
  | [] => []
  | '\r' :: '\n' :: rest => '\n' :: unifyLineEnds rest
  | '\r' :: rest => '\n' :: unifyLineEnds rest
  | c :: rest => c :: unifyLineEnds rest

/-- The lines of a text, without their newlines. -/
def lines : List Char → List (List Char)
  | [] => []
  | '\n' :: rest => [] :: lines rest
  | c :: rest =>
    match lines rest with
    | [] => [[c]]
    | line :: more => (c :: line) :: more

end MonkeyFrontend.Text
