import MonkeyFrontend.Token.Kind
import MonkeyFrontend.Text.Quoted

/-! # Tokens

A token is a kind with the source text it was cut from and the place where it starts.
The place is carried along for reports only: two tokens are the same when kind and text
are.
-/
namespace MonkeyFrontend

/-- A line and a column, both counted from one in a source text.  A token made by hand may
stand at any two numbers. -/
structure Position where
  line : Int
  column : Int
deriving DecidableEq, Repr

namespace Position

/-- The place of the first character of a text. -/
def start : Position := ⟨1, 1⟩

/-- The place of a token that no text holds. -/
def unknown : Position := ⟨0, 0⟩

/-- The place behind one character. -/
def after (p : Position) (c : Char) : Position :=
  if c = '\n' then ⟨p.line + 1, 1⟩ else ⟨p.line, p.column + 1⟩

/-- The place behind a text. -/
def advance (p : Position) (cs : List Char) : Position := cs.foldl after p

theorem advance_nil (p : Position) : p.advance [] = p := rfl

theorem advance_cons (p : Position) (c : Char) (cs : List Char) :
    p.advance (c :: cs) = (p.after c).advance cs := rfl

theorem advance_append (p : Position) (cs ds : List Char) :
    p.advance (cs ++ ds) = (p.advance cs).advance ds := List.foldl_append

end Position

/-- A lexical token. -/
structure Token where
  kind : Kind
  literal : String
  position : Position := Position.unknown
deriving DecidableEq, Repr

namespace Token

/-- The token that stands for the end of a text. -/
def eof (p : Position) : Token := ⟨.eof, "", p⟩

/-- Whether two tokens agree in kind and text. -/
def same (a b : Token) : Bool := a.kind == b.kind && a.literal == b.literal

/-- Kind and text of a token, on one line. -/
def inspect (t : Token) : String :=
  "Token(" ++ t.kind.text ++ ", " ++ Text.quote t.literal ++ ")"

/-- The indices of the tokens that differ from all tokens before them. -/
def distinct (ts : List Token) : List Nat :=
  (ts.zipIdx.filter fun (t, i) => !(ts.take i).any t.same).map Prod.snd

theorem same_iff {a b : Token} : a.same b = true ↔ a.kind = b.kind ∧ a.literal = b.literal := by
  simp [same]

end Token

/-- A kind as one member of its enumeration. -/
def Kind.inspect (k : Kind) : String :=
  "<TokenKind." ++ k.name ++ ": " ++ Text.quote k.text ++ ">"

/-- What is refused about kinds and tokens. -/
inductive TokenError where
  /-- No kind is shown by this text. -/
  | unknownKind (text : String)
  /-- A token never changes, so no field of it can be given a value. -/
  | immutable (field : String)
deriving DecidableEq, Repr

namespace TokenError

/-- The wording of a refusal. -/
def message : TokenError → String
  | unknownKind text => Text.quote text ++ " is not a valid TokenKind"
  | immutable field => "Token is immutable, cannot set '" ++ field ++ "'"

end TokenError

/-- The kind shown by a text, or its refusal. -/
def Kind.ofText (s : String) : Except TokenError Kind :=
  match Kind.ofText? s with
  | some k => .ok k
  | none => .error (.unknownKind s)

/-- Giving a field of a token a value is refused, whatever its name. -/
def Token.assign (_ : Token) (field : String) : Except TokenError Token :=
  .error (.immutable field)

end MonkeyFrontend
