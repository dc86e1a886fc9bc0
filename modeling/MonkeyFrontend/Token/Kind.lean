/-! # Kinds of tokens

The closed set of lexical categories.  Each kind has the text by which diagnostics and
listings show it; the keywords and the symbols have in addition the spelling by which a
source text selects them.
-/
namespace MonkeyFrontend

/-- A lexical category. -/
inductive Kind where
  | illegal
  | eof
  | ident
  | int
  | assign
  | plus
  | minus
  | bang
  | asterisk
  | slash
  | lt
  | gt
  | eq
  | notEq
  | comma
  | semicolon
  | lparen
  | rparen
  | lbrace
  | rbrace
  | functionWord
  | letWord
  | trueWord
  | falseWord
  | ifWord
  | elseWord
  | returnWord
deriving DecidableEq, Repr

namespace Kind

/-- Every kind: the two markers, names and numbers, operators, delimiters, keywords. -/
def all : List Kind :=
  [illegal, eof, ident, int, assign, plus, minus, bang, asterisk, slash, lt, gt, eq, notEq,
    comma, semicolon, lparen, rparen, lbrace, rbrace, functionWord, letWord, trueWord,
    falseWord, ifWord, elseWord, returnWord]

/-- The text that shows a kind in diagnostics and listings. -/
def text : Kind → String
  | illegal => "ILLEGAL"
  | eof => "EOF"
  | ident => "IDENT"
  | int => "INT"
  | assign => "="
  | plus => "+"
  | minus => "-"
  | bang => "!"
  | asterisk => "*"
  | slash => "/"
  | lt => "<"
  | gt => ">"
  | eq => "=="
  | notEq => "!="
  | comma => ","
  | semicolon => ";"
  | lparen => "("
  | rparen => ")"
  | lbrace => "\x7b"
  | rbrace => "\x7d"
  | functionWord => "FUNCTION"
  | letWord => "LET"
  | trueWord => "TRUE"
  | falseWord => "FALSE"
  | ifWord => "IF"
  | elseWord => "ELSE"
  | returnWord => "RETURN"

/-- The word that names a kind, also where its text is a symbol. -/
def name : Kind → String
  | assign => "ASSIGN"
  | plus => "PLUS"
  | minus => "MINUS"
  | bang => "BANG"
  | asterisk => "ASTERISK"
  | slash => "SLASH"
  | lt => "LT"
  | gt => "GT"
  | eq => "EQ"
  | notEq => "NOT_EQ"
  | comma => "COMMA"
  | semicolon => "SEMICOLON"
  | lparen => "LPAREN"
  | rparen => "RPAREN"
  | lbrace => "LBRACE"
  | rbrace => "RBRACE"
  | k => k.text

/-- The kind that a text shows. -/
def ofText? (s : String) : Option Kind := all.find? fun k => k.text == s

/-- The reserved words, with the kind of each. -/
def keywords : List (String × Kind) :=
  [("fn", functionWord), ("let", letWord), ("true", trueWord), ("false", falseWord),
    ("if", ifWord), ("else", elseWord), ("return", returnWord)]

/-- The kind of a word: its keyword, or an identifier. -/
def ofWord (word : String) : Kind := (keywords.lookup word).getD ident

/-- The kind of a character that stands for itself; any other character is illegal. -/
def ofSymbol : Char → Kind
  | '=' => assign
  | '+' => plus
  | '-' => minus
  | '!' => bang
  | '*' => asterisk
  | '/' => slash
  | '<' => lt
  | '>' => gt
  | ',' => comma
  | ';' => semicolon
  | '(' => lparen
  | ')' => rparen
  | '{' => lbrace
  | '}' => rbrace
  | _ => illegal

/-- The kind of the operator that a character forms with an equals sign behind it. -/
def ofDoubled? : Char → Option Kind
  | '=' => some eq
  | '!' => some notEq
  | _ => none

theorem ofWord_ne_eof (word : String) : ofWord word ≠ eof := by
  have hkeywords : ∀ p ∈ keywords, p.2 ≠ eof := by decide
  unfold ofWord
  cases hlook : keywords.lookup word with
  | none => simp
  | some k =>
    obtain ⟨l₁, l₂, hsplit, _⟩ := List.lookup_eq_some_iff.mp hlook
    exact hkeywords (word, k) (by rw [hsplit]; simp)

theorem ofSymbol_ne_eof (c : Char) : ofSymbol c ≠ eof := by
  unfold ofSymbol
  split <;> simp

theorem ne_eof_of_ofDoubled? {c : Char} {k : Kind} (h : ofDoubled? c = some k) : k ≠ eof := by
  unfold ofDoubled? at h
  split at h <;> simp_all <;> simp [← h]

theorem ofText?_text (k : Kind) : ofText? k.text = some k := by cases k <;> decide

end Kind

end MonkeyFrontend
