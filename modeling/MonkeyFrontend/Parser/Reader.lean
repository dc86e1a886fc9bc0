import MonkeyFrontend.Parser.Descent

/-! # Readers

A reader keeps a supply of tokens and the diagnostics found so far.  Every construct may be
read from it at any time and in any order, wherever its supply stands.
-/
namespace MonkeyFrontend

open TokenSupply

/-- A supply of tokens with the diagnostics found so far.  Unless it is said otherwise, the
tokens are read from a text one by one. -/
structure Reader (σ : Type := Window) where
  stream : σ
  diagnostics : List Diagnostic

/-- What a reader can be asked to do. -/
inductive Call where
  | advance
  | currentIs (kind : Kind)
  | upcomingIs (kind : Kind)
  | expect (kind : Kind)
  | reportUnexpected (wanted : Kind)
  | reportNoExpression (found : Kind)
  | currentPrecedence
  | upcomingPrecedence
  | program
  | statement
  | letting
  | returning
  | expressionStatement
  | block
  | value
  | expression (p : Precedence)
  | identifier
  | integer
  | boolean
  | unary
  | binary (left : Expr)
  | grouped
  | conditional
  | function
  | parameters
  | diagnostics

/-- What a reader answers. -/
inductive Reply where
  | nothing
  | truth (b : Bool)
  | level (p : Precedence)
  | tree (node : Option Node)
  | names (parameters : Option (List Identifier))
  | reports (diagnostics : List Diagnostic)

namespace Reader

/-- The reader of the tokens of a text, after the first `n` of them. -/
def ofSource (source : String) (n : Nat) : Reader :=
  ⟨.ofCursor ((Cursor.ofSource source).skipTokens n), []⟩

variable {σ : Type} [TokenSupply σ]

/-- Answers with what was read and goes on behind it. -/
def accept {α : Type} (r : Reader σ) (o : Outcome α r.stream) (reply : α → Reply) :
    Reply × Reader σ :=
  (reply o.value, ⟨o.stream, r.diagnostics ++ o.found⟩)

/-- Answers with an expression, which may be missing. -/
def acceptExpr (r : Reader σ) (o : Outcome (Option Expr) r.stream) : Reply × Reader σ :=
  r.accept o fun e => .tree (e.map .expression)

/-- Answers with a statement. -/
def acceptStmt (r : Reader σ) (o : Outcome Stmt r.stream) : Reply × Reader σ :=
  r.accept o fun stmt => .tree (some (.statement stmt))

/-- Does what it is asked to do. -/
def perform (r : Reader σ) : Call → Reply × Reader σ
  | .advance => (.nothing, ⟨advance r.stream, r.diagnostics⟩)
  | .currentIs k => (.truth ((current r.stream).kind == k), r)
  | .upcomingIs k => (.truth ((upcoming r.stream).kind == k), r)
  | .expect k => r.accept (MonkeyFrontend.expect k r.stream) .truth
  | .reportUnexpected k =>
    r.accept (.report r.stream () (.unexpected k (upcoming r.stream).kind)) fun _ => .nothing
  | .reportNoExpression k => r.accept (.report r.stream () (.noExpression k)) fun _ => .nothing
  | .currentPrecedence => (.level (current r.stream).kind.precedence, r)
  | .upcomingPrecedence => (.level (upcoming r.stream).kind.precedence, r)
  | .program => r.accept (Parser.program r.stream) fun p => .tree (some (.program p))
  | .statement => r.acceptStmt (Parser.statement r.stream)
  | .letting => r.acceptStmt (Parser.letting r.stream)
  | .returning => r.acceptStmt (Parser.returning r.stream)
  | .expressionStatement => r.acceptStmt (Parser.expressionStatement r.stream)
  | .block => r.acceptStmt ((Parser.block r.stream).map .block)
  | .value => r.acceptExpr (Parser.value r.stream)
  | .expression p => r.acceptExpr (Parser.expression p r.stream)
  | .identifier => r.acceptExpr ((Parser.identifier r.stream).map some)
  | .integer => r.acceptExpr (Parser.integer r.stream)
  | .boolean => r.acceptExpr ((Parser.boolean r.stream).map some)
  | .unary => r.acceptExpr ((Parser.unary r.stream).map some)
  | .binary left => r.acceptExpr ((Parser.binary left r.stream).map some)
  | .grouped => r.acceptExpr (Parser.grouped r.stream)
  | .conditional => r.acceptExpr (Parser.conditional r.stream)
  | .function => r.acceptExpr (Parser.function r.stream)
  | .parameters => r.accept (Parser.parameters r.stream) .names
  | .diagnostics => (.reports r.diagnostics, r)

/-- Does a number of things one after the other. -/
def performAll (r : Reader σ) : List Call → List Reply × Reader σ
  | [] => ([], r)
  | call :: calls =>
    let first := r.perform call
    let later := first.2.performAll calls
    (first.1 :: later.1, later.2)

end Reader

end MonkeyFrontend
