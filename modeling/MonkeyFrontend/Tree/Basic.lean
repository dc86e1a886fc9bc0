import MonkeyFrontend.Token.Basic

/-! # Trees

The tree of a program: statements, expressions and blocks.  Each node keeps the token that
introduced it.  An optional slot is empty when its part could not be read; a tree made by
hand may also carry texts that disagree with its tokens.
-/
namespace MonkeyFrontend

/-- A name, as an expression, as the target of a let statement or as a parameter. -/
structure Identifier where
  token : Token
  name : String
deriving DecidableEq, Repr

mutual

/-- An expression. -/
inductive Expr where
  | identifier (name : Identifier)
  | integer (token : Token) (value : Int)
  | boolean (token : Token) (value : Bool)
  | unary (token : Token) (operator : String) (right : Option Expr)
  | binary (token : Token) (left : Expr) (operator : String) (right : Option Expr)
  | conditional (token : Token) (condition : Option Expr) (consequence : Block)
      (alternative : Option Block)
  | function (token : Token) (parameters : List Identifier) (body : Block)

/-- A statement.  A block stands as a statement only in trees made by hand. -/
inductive Stmt where
  | letting (token : Token) (name : Option Identifier) (value : Option Expr)
  | returning (token : Token) (value : Option Expr)
  | expression (token : Token) (value : Option Expr)
  | block (block : Block)

/-- The statements between two braces. -/
inductive Block where
  | mk (token : Token) (statements : List Stmt)

end

/-- The root of a tree: the statements of a whole text. -/
structure Program where
  statements : List Stmt

/-- Any tree: a program, a statement or an expression. -/
inductive Node where
  | program (p : Program)
  | statement (s : Stmt)
  | expression (e : Expr)

/-- The token that introduced a block: its opening brace. -/
def Block.token : Block → Token
  | .mk t _ => t

/-- The statements of a block. -/
def Block.statements : Block → List Stmt
  | .mk _ ss => ss

/-- The token that introduced an expression. -/
def Expr.token : Expr → Token
  | .identifier i => i.token
  | .integer t _ => t
  | .boolean t _ => t
  | .unary t _ _ => t
  | .binary t _ _ _ => t
  | .conditional t _ _ _ => t
  | .function t _ _ => t

/-- The token that introduced a statement. -/
def Stmt.token : Stmt → Token
  | .letting t _ _ => t
  | .returning t _ => t
  | .expression t _ => t
  | .block b => b.token

/-- The text of the token that introduced the first statement; empty if there is none. -/
def Program.tokenLiteral (p : Program) : String :=
  match p.statements with
  | [] => ""
  | s :: _ => s.token.literal

/-- The text of the token that introduced a tree. -/
def Node.tokenLiteral : Node → String
  | .program p => p.tokenLiteral
  | .statement s => s.token.literal
  | .expression e => e.token.literal

end MonkeyFrontend
