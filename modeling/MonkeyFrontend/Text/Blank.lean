import MonkeyFrontend.Text.Range

/-! # Blank characters

The characters that trimming removes at both ends of a line: the white space of Unicode
and the four separators U+001C to U+001F.
-/
namespace MonkeyFrontend.Text

/-- The ranges of the blank characters. -/
def blanks : List (Nat × Nat) :=
  [(0x9, 0xd), (0x1c, 0x20), (0x85, 0x85), (0xa0, 0xa0), (0x1680, 0x1680), (0x2000, 0x200a),
    (0x2028, 0x2029), (0x202f, 0x202f), (0x205f, 0x205f), (0x3000, 0x3000)]

/-- Whether a character is blank. -/
def isBlank (c : Char) : Bool := covers blanks c.toNat

/-- A text without the blanks at its two ends. -/
def trim (cs : List Char) : List Char :=
  ((cs.dropWhile isBlank).reverse.dropWhile isBlank).reverse

end MonkeyFrontend.Text
