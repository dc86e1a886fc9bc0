import MonkeyFrontend.Text.Printable

/-! # Quoted text

A text is written between quotes on one line: the quote and the backslash behind a
backslash, newline, carriage return and tab by a letter, any other unprintable character
by its code in hexadecimal.
-/
namespace MonkeyFrontend.Text

/-- The last `width` hexadecimal digits of a number, in lower case. -/
def hex : Nat → Nat → List Char
  | 0, _ => []
  | width + 1, n => hex width (n / 16) ++ [Nat.digitChar (n % 16)]

/-- The quote around a text: the single one, unless the text has it and not the double one. -/
def quoteFor (cs : List Char) : Char :=
  if cs.contains '\'' && !cs.contains '"' then '"' else '\''

/-- How one character stands between quotes of the given kind. -/
def escape (quote c : Char) : List Char :=
  if c = quote ∨ c = '\\' then ['\\', c]
  else if c = '\n' then ['\\', 'n']
  else if c = '\r' then ['\\', 'r']
  else if c = '\t' then ['\\', 't']
  else if isPrintable c then [c]
  else if c.toNat < 0x100 then '\\' :: 'x' :: hex 2 c.toNat
  else if c.toNat < 0x10000 then '\\' :: 'u' :: hex 4 c.toNat
  else '\\' :: 'U' :: hex 8 c.toNat

/-- A text between quotes, character by character. -/
def quoteChars (cs : List Char) : List Char :=
  quoteFor cs :: (cs.flatMap (escape (quoteFor cs)) ++ [quoteFor cs])

/-- A text between quotes. -/
def quote (s : String) : String := String.ofList (quoteChars s.toList)

end MonkeyFrontend.Text
