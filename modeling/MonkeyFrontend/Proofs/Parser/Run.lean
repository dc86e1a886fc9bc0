import MonkeyFrontend.Parser.Reader

/-! # Runs of a parser

The functions that read constructs are mutually recursive, and each hands over to others
from several branches.  This module states what one call can do as one relation, `Run`,
with a rule for each branch: no rule speaks of an end of the recursion, and none chooses
the supply.  A fact about all calls, at whatever token they are made, is one induction on
runs.
-/
namespace MonkeyFrontend
namespace Parser

open TokenSupply

/-- What can be read from a supply of tokens, with what is known when reading begins. -/
inductive Construct where
  | expression (p : Precedence)
  | operand
  | operators (p : Precedence) (left : Expr)
  | binary (left : Expr)
  | unary
  | grouped
  | conditional
  | branches (keyword : Token) (condition : Option Expr)
  | alternative
  | function
  | braced
  | block
  | statements (closer : Kind)
  | statement
  | letting
  | returning
  | expressionStatement
  | value
  | lastValue (v : Option Expr)
  | parameters
  | moreParameters

namespace Construct

/-- What reading a construct gives. -/
abbrev Value : Construct → Type
  | expression _ | operand | grouped | conditional | branches _ _ | function | value
  | lastValue _ => Option Expr
  | operators _ _ | binary _ | unary => Expr
  | alternative => Option (Option Block)
  | braced => Option Block
  | block => Block
  | statements _ => List Stmt
  | statement | letting | returning | expressionStatement => Stmt
  | parameters | moreParameters => Option (List Identifier)

variable {σ : Type} [TokenSupply σ]

/-- Reads a construct. -/
def read : (c : Construct) → (s : σ) → Outcome c.Value s
  | expression p, s => Parser.expression p s
  | operand, s => Parser.operand s
  | operators p left, s => Parser.operators p left s
  | binary left, s => Parser.binary left s
  | unary, s => Parser.unary s
  | grouped, s => Parser.grouped s
  | conditional, s => Parser.conditional s
  | branches keyword condition, s => Parser.branches keyword condition s
  | alternative, s => Parser.alternative s
  | function, s => Parser.function s
  | braced, s => Parser.braced s
  | block, s => Parser.block s
  | statements closer, s => Parser.statements closer s
  | statement, s => Parser.statement s
  | letting, s => Parser.letting s
  | returning, s => Parser.returning s
  | expressionStatement, s => Parser.expressionStatement s
  | value, s => Parser.value s
  | lastValue v, s => Parser.lastValue v s
  | parameters, s => Parser.parameters s
  | moreParameters, s => Parser.moreParameters s

end Construct

variable {σ : Type} [TokenSupply σ]

/-- **One call of a parser.**  `Run c s v ds t` says that reading the construct `c` from the
supply `s` gives `v`, reports `ds` and ends at `t`.  Each rule is one way through the
function that reads its construct. -/
inductive Run : (c : Construct) → σ → c.Value → List Diagnostic → σ → Prop where
  | expression_missing {p s ds t} : Run .operand s none ds t →
      Run (.expression p) s none ds t
  | expression {p s ds t es u} {left e : Expr} : Run .operand s (some left) ds t →
      Run (.operators p left) t e es u → Run (.expression p) s (some e) (ds ++ es) u
  | identifier {s} : (current s).kind = .ident →
      Run .operand s (some (.identifier (.ofToken (current s)))) [] s
  | integer {s} {n : Nat} : (current s).kind = .int →
      integerValue? (current s).literal = some n →
      Run .operand s (some (.integer (current s) (Int.ofNat n))) [] s
  | integer_bad {s} : (current s).kind = .int → integerValue? (current s).literal = none →
      Run .operand s none [.badInteger (current s).literal] s
  | boolean {s} : (current s).kind = .trueWord ∨ (current s).kind = .falseWord →
      Run .operand s (some (.boolean (current s) ((current s).kind == .trueWord))) [] s
  | operand_unary {s ds t} {e : Expr} :
      (current s).kind = .bang ∨ (current s).kind = .minus → Run .unary s e ds t →
      Run .operand s (some e) ds t
  | operand_grouped {s ds t} {v : Option Expr} : (current s).kind = .lparen →
      Run .grouped s v ds t → Run .operand s v ds t
  | operand_conditional {s ds t} {v : Option Expr} : (current s).kind = .ifWord →
      Run .conditional s v ds t → Run .operand s v ds t
  | operand_function {s ds t} {v : Option Expr} : (current s).kind = .functionWord →
      Run .function s v ds t → Run .operand s v ds t
  | operand_missing {s} : (current s).kind.startsExpression = false →
      Run .operand s none [.noExpression (current s).kind] s
  | operators_stop {p s} {left : Expr} : ¬ p < (upcoming s).kind.precedence →
      Run (.operators p left) s left [] s
  | operators_step {p s ds t es u} {left next e : Expr} : p < (upcoming s).kind.precedence →
      Run (.binary left) (advance s) next ds t → Run (.operators p next) t e es u →
      Run (.operators p left) s e (ds ++ es) u
  | binary {s ds t} {left : Expr} {r : Option Expr} :
      Run (.expression (current s).kind.precedence) (advance s) r ds t →
      Run (.binary left) s (.binary (current s) left (current s).literal r) ds t
  | unary {s ds t} {r : Option Expr} : Run (.expression .unary) (advance s) r ds t →
      Run .unary s (.unary (current s) (current s).literal r) ds t
  | grouped {s ds t} {v : Option Expr} : Run (.expression .lowest) (advance s) v ds t →
      (upcoming t).kind = .rparen → Run .grouped s v ds (advance t)
  | grouped_open {s ds t} {v : Option Expr} : Run (.expression .lowest) (advance s) v ds t →
      (upcoming t).kind ≠ .rparen →
      Run .grouped s none (ds ++ [.unexpected .rparen (upcoming t).kind]) t
  | conditional_bare {s} : (upcoming s).kind ≠ .lparen →
      Run .conditional s none [.unexpected .lparen (upcoming s).kind] s
  | conditional_open {s ds t} {c : Option Expr} : (upcoming s).kind = .lparen →
      Run (.expression .lowest) (advance (advance s)) c ds t → (upcoming t).kind ≠ .rparen →
      Run .conditional s none (ds ++ [.unexpected .rparen (upcoming t).kind]) t
  | conditional {s ds t es u} {c v : Option Expr} : (upcoming s).kind = .lparen →
      Run (.expression .lowest) (advance (advance s)) c ds t → (upcoming t).kind = .rparen →
      Run (.branches (current s) c) (advance t) v es u → Run .conditional s v (ds ++ es) u
  | branches_missing {k s ds t} {c : Option Expr} : Run .braced s none ds t →
      Run (.branches k c) s none ds t
  | branches {k s ds t es u} {c : Option Expr} {b : Block} {a : Option (Option Block)} :
      Run .braced s (some b) ds t → Run .alternative t a es u →
      Run (.branches k c) s (a.map (.conditional k c b)) (ds ++ es) u
  | alternative {s ds t} {b : Option Block} : (upcoming s).kind = .elseWord →
      Run .braced (advance s) b ds t → Run .alternative s (b.map some) ds t
  | alternative_absent {s} : (upcoming s).kind ≠ .elseWord →
      Run .alternative s (some none) [] s
  | function_bare {s} : (upcoming s).kind ≠ .lparen →
      Run .function s none [.unexpected .lparen (upcoming s).kind] s
  | function_open {s ds t} : (upcoming s).kind = .lparen →
      Run .parameters (advance s) none ds t → Run .function s none ds t
  | function {s ds t es u} {ps : List Identifier} {b : Option Block} :
      (upcoming s).kind = .lparen → Run .parameters (advance s) (some ps) ds t →
      Run .braced t b es u → Run .function s (b.map (.function (current s) ps)) (ds ++ es) u
  | braced {s ds t} {b : Block} : (upcoming s).kind = .lbrace →
      Run .block (advance s) b ds t → Run .braced s (some b) ds t
  | braced_missing {s} : (upcoming s).kind ≠ .lbrace →
      Run .braced s none [.unexpected .lbrace (upcoming s).kind] s
  | block {s ds t} {ss : List Stmt} : Run (.statements .rbrace) (advance s) ss ds t →
      Run .block s (.mk (current s) ss) ds t
  | statements_stop {k s} : (current s).kind = k ∨ (current s).kind = .eof →
      Run (.statements k) s [] [] s
  | statements_step {k s ds t es u} {x : Stmt} {xs : List Stmt} :
      ¬ ((current s).kind = k ∨ (current s).kind = .eof) → Run .statement s x ds t →
      Run (.statements k) (advance t) xs es u → Run (.statements k) s (x :: xs) (ds ++ es) u
  | statement_letting {s ds t} {x : Stmt} : (current s).kind = .letWord →
      Run .letting s x ds t → Run .statement s x ds t
  | statement_returning {s ds t} {x : Stmt} : (current s).kind = .returnWord →
      Run .returning s x ds t → Run .statement s x ds t
  | statement_expression {s ds t} {x : Stmt} : (current s).kind ≠ .letWord →
      (current s).kind ≠ .returnWord → Run .expressionStatement s x ds t →
      Run .statement s x ds t
  | letting_bare {s} : (upcoming s).kind ≠ .ident →
      Run .letting s (.letting (current s) none none) [.unexpected .ident (upcoming s).kind] s
  | letting_open {s} : (upcoming s).kind = .ident → (upcoming (advance s)).kind ≠ .assign →
      Run .letting s (.letting (current s) (some (.ofToken (upcoming s))) none)
        [.unexpected .assign (upcoming (advance s)).kind] (advance s)
  | letting {s ds t} {v : Option Expr} : (upcoming s).kind = .ident →
      (upcoming (advance s)).kind = .assign →
      Run .value (advance (advance (advance s))) v ds t →
      Run .letting s (.letting (current s) (some (.ofToken (upcoming s))) v) ds t
  | returning {s ds t} {v : Option Expr} : Run .value (advance s) v ds t →
      Run .returning s (.returning (current s) v) ds t
  | expressionStatement_closed {s ds t} {v : Option Expr} :
      Run (.expression .lowest) s v ds t → (upcoming t).kind = .semicolon →
      Run .expressionStatement s (.expression (current s) v) ds (advance t)
  | expressionStatement {s ds t} {v : Option Expr} : Run (.expression .lowest) s v ds t →
      (upcoming t).kind ≠ .semicolon →
      Run .expressionStatement s (.expression (current s) v) ds t
  | value {s ds t es u} {v w : Option Expr} : Run (.expression .lowest) s v ds t →
      Run (.lastValue v) t w es u → Run .value s w (ds ++ es) u
  | lastValue_stop {s} {v : Option Expr} :
      (current s).kind = .semicolon ∨ (current s).kind = .eof → Run (.lastValue v) s v [] s
  | lastValue_closed {s} {v : Option Expr} :
      ¬ ((current s).kind = .semicolon ∨ (current s).kind = .eof) →
      (upcoming s).kind = .semicolon ∨ (upcoming s).kind = .eof →
      Run (.lastValue v) s v [] (advance s)
  | lastValue_step {s ds t es u} {v next w : Option Expr} :
      ¬ ((current s).kind = .semicolon ∨ (current s).kind = .eof) →
      ¬ ((upcoming s).kind = .semicolon ∨ (upcoming s).kind = .eof) →
      Run (.expression .lowest) (advance s) next ds t → Run (.lastValue next) t w es u →
      Run (.lastValue v) s w (ds ++ es) u
  | parameters_none {s} : (upcoming s).kind = .rparen →
      Run .parameters s (some []) [] (advance s)
  | parameters_bare {s} : (upcoming s).kind ≠ .rparen → (upcoming s).kind ≠ .ident →
      Run .parameters s none [.unexpected .ident (upcoming s).kind] s
  | parameters {s ds t} {ps : Option (List Identifier)} : (upcoming s).kind = .ident →
      Run .moreParameters (advance s) ps ds t →
      Run .parameters s (ps.map (.ofToken (upcoming s) :: ·)) ds t
  | moreParameters_bare {s} : (upcoming s).kind = .comma →
      (upcoming (advance s)).kind ≠ .ident →
      Run .moreParameters s none [.unexpected .ident (upcoming (advance s)).kind] (advance s)
  | moreParameters {s ds t} {ps : Option (List Identifier)} : (upcoming s).kind = .comma →
      (upcoming (advance s)).kind = .ident →
      Run .moreParameters (advance (advance s)) ps ds t →
      Run .moreParameters s (ps.map (.ofToken (upcoming (advance s)) :: ·)) ds t
  | moreParameters_end {s} : (upcoming s).kind = .rparen →
      Run .moreParameters s (some []) [] (advance s)
  | moreParameters_open {s} : (upcoming s).kind ≠ .comma → (upcoming s).kind ≠ .rparen →
      Run .moreParameters s none [.unexpected .rparen (upcoming s).kind] s

end Parser
end MonkeyFrontend
