import MonkeyFrontend.Parser.Outcome
import MonkeyFrontend.Parser.Precedence
import MonkeyFrontend.Text.Decimal
import MonkeyFrontend.Token.Window
import MonkeyFrontend.Tree.Basic

/-! # Reading expressions and statements

Statements are read by descent, expressions by the precedence of their operators: an
operand comes first, and then every operator that binds more tightly than the context.
Nothing here fails: what cannot be read is reported and leaves an empty slot, and reading
goes on at the next token.

Every function takes a supply that stands on the first token of its construct and trusts
that token, so it may be called anywhere.  The number of tokens ahead bounds the recursion:
each function either moves on or hands over to a smaller construct.
-/
namespace MonkeyFrontend

/-- The name that a token spells. -/
def Identifier.ofToken (t : Token) : Identifier := ⟨t, t.literal⟩

namespace Parser

open TokenSupply

variable {σ : Type} [TokenSupply σ]

/-- The greatest number of digits that a number may have, leading zeros included. -/
def maxDigits : Nat := 4300

/-- The value of a number within the limit of digits. -/
def integerValue? (literal : String) : Option Nat :=
  if literal.length ≤ maxDigits then Text.decimal? literal.toList else none

/-- A name, from the current token. -/
def identifier (s : σ) : Outcome Expr s := .pure s (.identifier (.ofToken (current s)))

/-- A number, from the current token. -/
def integer (s : σ) : Outcome (Option Expr) s :=
  match integerValue? (current s).literal with
  | some n => .pure s (some (.integer (current s) n))
  | none => .report s none (.badInteger (current s).literal)

/-- A truth value, from the current token. -/
def boolean (s : σ) : Outcome Expr s :=
  .pure s (.boolean (current s) ((current s).kind == .trueWord))

/-- The parameters after one that was read, up to the closing parenthesis. -/
def moreParameters (s : σ) : Outcome (Option (List Identifier)) s :=
  if _h : (upcoming s).kind = .comma then
    let name := expect .ident (advance s)
    if name.value then
      let more := moreParameters name.stream
      (name.andThen (more.map (Option.map (.ofToken (current name.stream) :: ·)))).behind
    else (name.map fun _ => none).behind
  else
    (expect .rparen s).map fun closed => if closed then some [] else none
termination_by size s
decreasing_by
  exact Nat.lt_of_le_of_lt name.size_le (size_advance_lt_of_upcoming s (by simp [_h]))

/-- The parameters of a function, from its opening to its closing parenthesis. -/
def parameters (s : σ) : Outcome (Option (List Identifier)) s :=
  if (upcoming s).kind = .rparen then (Outcome.pure (advance s) (some [])).behind
  else
    let name := expect .ident s
    if name.value then
      name.andThen ((moreParameters name.stream).map
        (Option.map (.ofToken (current name.stream) :: ·)))
    else name.map fun _ => none

/-- The order in which constructs hand over to each other: first by the tokens ahead, then by
their rank. -/
theorem rank_lt {m n i j : Nat} (h : m ≤ n) (hij : i < j) : 16 * m + i < 16 * n + j := by
  omega

theorem rank_lt_of_lt {m n i j : Nat} (h : m < n) (hij : i < 16 + j) :
    16 * m + i < 16 * n + j := by
  omega

mutual

/-- An expression whose operators all bind more tightly than `p`. -/
def expression (p : Precedence) (s : σ) : Outcome (Option Expr) s :=
  let first := operand s
  match first.value with
  | none => first
  | some left => first.andThen ((operators p left first.stream).map some)
termination_by 16 * size s + 3
decreasing_by
  · exact rank_lt (Nat.le_refl _) (by decide)
  · exact rank_lt first.size_le (by decide)

/-- An expression without binary operators of its own. -/
def operand (s : σ) : Outcome (Option Expr) s :=
  match _h : (current s).kind with
  | .ident => (identifier s).map some
  | .int => integer s
  | .trueWord => (boolean s).map some
  | .falseWord => (boolean s).map some
  | .bang => (unary s).map some
  | .minus => (unary s).map some
  | .lparen => grouped s
  | .ifWord => conditional s
  | .functionWord => function s
  | k => .report s none (.noExpression k)
termination_by 16 * size s + 2
decreasing_by
  all_goals exact rank_lt_of_lt (size_advance_lt s (by simp [_h])) (by decide)

/-- The binary operators after the expression `left` that bind more tightly than `p`, with
their right operands. -/
def operators (p : Precedence) (left : Expr) (s : σ) : Outcome Expr s :=
  if _h : p < (upcoming s).kind.precedence then
    let next := binary left (advance s)
    (next.andThen (operators p next.value next.stream)).behind
  else .pure s left
termination_by 16 * size s + 1
decreasing_by
  all_goals have ahead := Kind.ne_eof_of_lt_precedence _h
  · exact rank_lt_of_lt (Nat.lt_of_le_of_lt (size_advance_le (advance s))
      (size_advance_lt_of_upcoming s ahead)) (by decide)
  · exact rank_lt_of_lt (Nat.lt_of_le_of_lt next.size_le
      (size_advance_lt_of_upcoming s ahead)) (by decide)

/-- A binary expression, from its operator on. -/
def binary (left : Expr) (s : σ) : Outcome Expr s :=
  ((expression (current s).kind.precedence (advance s)).map
    (.binary (current s) left (current s).literal)).behind
termination_by 16 * size (advance s) + 8

/-- An expression behind an operator of its own. -/
def unary (s : σ) : Outcome Expr s :=
  ((expression .unary (advance s)).map (.unary (current s) (current s).literal)).behind
termination_by 16 * size (advance s) + 8

/-- An expression between parentheses. -/
def grouped (s : σ) : Outcome (Option Expr) s :=
  let inner := expression .lowest (advance s)
  (inner.andThen ((expect .rparen inner.stream).map fun closed =>
    if closed then inner.value else none)).behind
termination_by 16 * size (advance s) + 8

/-- A conditional, from its keyword on. -/
def conditional (s : σ) : Outcome (Option Expr) s :=
  let opening := expect .lparen s
  if opening.value then
    let condition := expression .lowest (advance opening.stream)
    let closing := expect .rparen condition.stream
    opening.andThen (condition.andThen (
      if closing.value then
        closing.andThen (branches (current s) condition.value closing.stream)
      else closing.map fun _ => none)).behind
  else opening.map fun _ => none
termination_by 16 * size (advance s) + 12
decreasing_by
  all_goals have inside := advance_size_le opening.size_le
  · exact rank_lt inside (by decide)
  · exact rank_lt (Nat.le_trans (Nat.le_trans (size_advance_le closing.stream)
      (Nat.le_trans closing.size_le condition.size_le)) inside) (by decide)

/-- The blocks of a conditional after its condition. -/
def branches (t : Token) (condition : Option Expr) (s : σ) :
    Outcome (Option Expr) s :=
  let consequence := braced s
  match consequence.value with
  | none => consequence.map fun _ => none
  | some b =>
    consequence.andThen ((alternative consequence.stream).map
      (Option.map (.conditional t condition b)))
termination_by 16 * size (advance s) + 11
decreasing_by
  · exact rank_lt (Nat.le_refl _) (by decide)
  · exact rank_lt (advance_size_le consequence.size_le) (by decide)

/-- The alternative of a conditional, which may be missing but not incomplete. -/
def alternative (s : σ) : Outcome (Option (Option Block)) s :=
  if (upcoming s).kind = .elseWord then
    ((braced (advance s)).map (Option.map some)).behind
  else .pure s (some none)
termination_by 16 * size (advance s) + 10
decreasing_by
  exact rank_lt (size_advance_le (advance s)) (by decide)

/-- A function, from its keyword on. -/
def function (s : σ) : Outcome (Option Expr) s :=
  let opening := expect .lparen s
  if opening.value then
    let names := parameters opening.stream
    match names.value with
    | none => opening.andThen (names.map fun _ => none)
    | some ps =>
      opening.andThen (names.andThen ((braced names.stream).map
        (Option.map (.function (current s) ps))))
  else opening.map fun _ => none
termination_by 16 * size (advance s) + 12
decreasing_by
  exact rank_lt (advance_size_le (Nat.le_trans names.size_le opening.size_le))
    (by decide)

/-- A block whose opening brace comes next. -/
def braced (s : σ) : Outcome (Option Block) s :=
  let opening := expect .lbrace s
  if opening.value then opening.andThen ((block opening.stream).map some)
  else opening.map fun _ => none
termination_by 16 * size (advance s) + 9
decreasing_by
  exact rank_lt (advance_size_le opening.size_le) (by decide)

/-- A block, from its opening brace to its closing one or to the end of the text. -/
def block (s : σ) : Outcome Block s :=
  ((statements .rbrace (advance s)).map (.mk (current s))).behind
termination_by 16 * size (advance s) + 8

/-- The statements before a token of the kind `closer` or before the end of the text. -/
def statements (closer : Kind) (s : σ) : Outcome (List Stmt) s :=
  if _h : (current s).kind = closer ∨ (current s).kind = .eof then .pure s []
  else
    let first := statement s
    let more := statements closer (advance first.stream)
    first.andThen ((more.map (first.value :: ·)).behind)
termination_by 16 * size s + 6
decreasing_by
  · exact rank_lt (Nat.le_refl _) (by decide)
  · exact rank_lt_of_lt (Nat.lt_of_le_of_lt (advance_size_le first.size_le)
      (size_advance_lt s fun h => _h (Or.inr h))) (by decide)

/-- A statement. -/
def statement (s : σ) : Outcome Stmt s :=
  match _h : (current s).kind with
  | .letWord => letting s
  | .returnWord => returning s
  | _ => expressionStatement s
termination_by 16 * size s + 5
decreasing_by
  · exact rank_lt_of_lt (size_advance_lt s (by simp [_h])) (by decide)
  · exact rank_lt_of_lt (size_advance_lt s (by simp [_h])) (by decide)
  · exact rank_lt (Nat.le_refl _) (by decide)

/-- A let statement, from its keyword on. -/
def letting (s : σ) : Outcome Stmt s :=
  let name := expect .ident s
  if name.value then
    let target := Identifier.ofToken (current name.stream)
    let sign := expect .assign name.stream
    if sign.value then
      name.andThen (sign.andThen (((value (advance sign.stream)).map
        (.letting (current s) (some target))).behind))
    else name.andThen (sign.map fun _ => .letting (current s) (some target) none)
  else name.map fun _ => .letting (current s) none none
termination_by 16 * size (advance s) + 8
decreasing_by
  exact rank_lt (advance_size_le (Nat.le_trans sign.size_le name.size_le))
    (by decide)

/-- A return statement, from its keyword on. -/
def returning (s : σ) : Outcome Stmt s :=
  ((value (advance s)).map (.returning (current s))).behind
termination_by 16 * size (advance s) + 8

/-- An expression as a statement, with the semicolon behind it if there is one. -/
def expressionStatement (s : σ) : Outcome Stmt s :=
  let inner := expression .lowest s
  let stmt := Stmt.expression (current s) inner.value
  if (upcoming inner.stream).kind = .semicolon then
    inner.andThen (Outcome.pure (advance inner.stream) stmt).behind
  else inner.map fun _ => stmt
termination_by 16 * size s + 4

/-- The value of a let or return statement, up to its semicolon or the end of the text: of
several expressions the last. -/
def value (s : σ) : Outcome (Option Expr) s :=
  let first := expression .lowest s
  first.andThen (lastValue first.value first.stream)
termination_by 16 * size s + 4
decreasing_by
  · exact rank_lt (Nat.le_refl _) (by decide)
  · exact rank_lt first.size_le (by decide)

/-- The value of a statement of which `v` is the last expression so far. -/
def lastValue (v : Option Expr) (s : σ) : Outcome (Option Expr) s :=
  if _h : (current s).kind = .semicolon ∨ (current s).kind = .eof then .pure s v
  else if (upcoming s).kind = .semicolon ∨ (upcoming s).kind = .eof then
    (Outcome.pure (advance s) v).behind
  else
    let next := expression .lowest (advance s)
    (next.andThen (lastValue next.value next.stream)).behind
termination_by 16 * size s + 2
decreasing_by
  all_goals have inside := size_advance_lt s fun h => _h (Or.inr h)
  · exact rank_lt_of_lt inside (by decide)
  · exact rank_lt_of_lt (Nat.lt_of_le_of_lt next.size_le inside) (by decide)

end

/-- A whole program: the statements before the end of the text. -/
def program (s : σ) : Outcome Program s := (statements .eof s).map Program.mk

/-- The program of a source text, with the diagnostics in the order in which they were
found. -/
def parse (source : String) : Program × List Diagnostic :=
  let o := program (Window.ofSource source)
  (o.value, o.found)

end Parser

end MonkeyFrontend
