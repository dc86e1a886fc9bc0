import MonkeyFrontend.Token.Kind

/-! # Lexemes

The lexeme at the head of a text is the longest piece that forms a token: a run of letters,
a run of digits, an operator of two characters, or else a single character.
-/
namespace MonkeyFrontend

/-- The characters that separate tokens. -/
def isGap (c : Char) : Bool := c = ' ' || c = '\t' || c = '\n' || c = '\r'

/-- The characters of words: the letters of the basic Latin alphabet and the underscore. -/
def isLetter (c : Char) : Bool :=
  (decide ('a' ≤ c) && decide (c ≤ 'z')) || (decide ('A' ≤ c) && decide (c ≤ 'Z')) || c = '_'

/-- The characters of numbers. -/
def isDigit (c : Char) : Bool := decide ('0' ≤ c) && decide (c ≤ '9')

/-- Kind and text of the lexeme at the head of the text `c :: rest`, which starts with no
gap. -/
def lexeme (c : Char) (rest : List Char) : Kind × List Char :=
  if isLetter c then
    let word := c :: rest.takeWhile isLetter
    (Kind.ofWord (String.ofList word), word)
  else if isDigit c then
    (.int, c :: rest.takeWhile isDigit)
  else
    match Kind.ofDoubled? c, rest with
    | some k, '=' :: _ => (k, [c, '='])
    | _, _ => (Kind.ofSymbol c, [c])

/-- A lexeme is not empty. -/
theorem lexeme_length_pos (c : Char) (rest : List Char) : 0 < (lexeme c rest).2.length := by
  unfold lexeme
  split
  · simp
  · split
    · simp
    · split <;> simp

/-- No lexeme stands for the end of a text. -/
theorem lexeme_kind_ne_eof (c : Char) (rest : List Char) : (lexeme c rest).1 ≠ .eof := by
  unfold lexeme
  split
  · exact Kind.ofWord_ne_eof _
  · split
    · simp
    · split
      · rename_i k _ hk
        exact Kind.ne_eof_of_ofDoubled? hk
      · exact Kind.ofSymbol_ne_eof c

end MonkeyFrontend
