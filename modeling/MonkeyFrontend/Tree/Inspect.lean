import MonkeyFrontend.Tree.Basic

/-! # The constructor form of a tree

Every node with the names and values of all its slots, on one line, positions left out.
Texts are quoted, so different trees are written differently.
-/
namespace MonkeyFrontend

/-- What stands for an empty slot. -/
def emptySlot : String := "None"

/-- A truth value in constructor form. -/
def inspectBool (b : Bool) : String := if b then "True" else "False"

/-- The constructor form of a name. -/
def Identifier.inspect (i : Identifier) : String :=
  "Identifier(token=" ++ i.token.inspect ++ ", value=" ++ Text.quote i.name ++ ")"

/-- The constructor form of an optional name. -/
def Identifier.inspectOption : Option Identifier → String
  | none => emptySlot
  | some i => i.inspect

/-- Names in constructor form, with a comma and a space between them. -/
def Identifier.inspectList : List Identifier → String
  | [] => ""
  | [i] => i.inspect
  | i :: is => i.inspect ++ ", " ++ Identifier.inspectList is

mutual

/-- The constructor form of an expression. -/
def Expr.inspect : Expr → String
  | .identifier i => i.inspect
  | .integer t v => "IntegerLiteral(token=" ++ t.inspect ++ ", value=" ++ toString v ++ ")"
  | .boolean t v => "BooleanLiteral(token=" ++ t.inspect ++ ", value=" ++ inspectBool v ++ ")"
  | .unary t o r =>
    "PrefixExpression(token=" ++ t.inspect ++ ", operator=" ++ Text.quote o ++ ", right="
      ++ Expr.inspectOption r ++ ")"
  | .binary t l o r =>
    "InfixExpression(token=" ++ t.inspect ++ ", left=" ++ l.inspect ++ ", operator="
      ++ Text.quote o ++ ", right=" ++ Expr.inspectOption r ++ ")"
  | .conditional t c b a =>
    "IfExpression(token=" ++ t.inspect ++ ", condition=" ++ Expr.inspectOption c
      ++ ", consequence=" ++ b.inspect ++ ", alternative=" ++ Block.inspectOption a ++ ")"
  | .function t ps b =>
    "FunctionLiteral(token=" ++ t.inspect ++ ", parameters=[" ++ Identifier.inspectList ps
      ++ "], body=" ++ b.inspect ++ ")"

/-- The constructor form of an optional expression. -/
def Expr.inspectOption : Option Expr → String
  | none => emptySlot
  | some e => e.inspect

/-- The constructor form of a statement. -/
def Stmt.inspect : Stmt → String
  | .letting t n v =>
    "LetStatement(token=" ++ t.inspect ++ ", name=" ++ Identifier.inspectOption n ++ ", value="
      ++ Expr.inspectOption v ++ ")"
  | .returning t v =>
    "ReturnStatement(token=" ++ t.inspect ++ ", value=" ++ Expr.inspectOption v ++ ")"
  | .expression t v =>
    "ExpressionStatement(token=" ++ t.inspect ++ ", value=" ++ Expr.inspectOption v ++ ")"
  | .block b => b.inspect

/-- Statements in constructor form, each with a comma and a space before it. -/
def Stmt.inspectMore : List Stmt → String
  | [] => ""
  | s :: ss => ", " ++ s.inspect ++ Stmt.inspectMore ss

/-- Statements in constructor form, with a comma and a space between them. -/
def Stmt.inspectList : List Stmt → String
  | [] => ""
  | s :: ss => s.inspect ++ Stmt.inspectMore ss

/-- The constructor form of a block. -/
def Block.inspect : Block → String
  | .mk t ss =>
    "BlockStatement(token=" ++ t.inspect ++ ", statements=[" ++ Stmt.inspectList ss ++ "])"

/-- The constructor form of an optional block. -/
def Block.inspectOption : Option Block → String
  | none => emptySlot
  | some b => b.inspect

end

/-- The constructor form of a program. -/
def Program.inspect (p : Program) : String :=
  "Program(statements=[" ++ Stmt.inspectList p.statements ++ "])"

/-- The constructor form of any tree. -/
def Node.inspect : Node → String
  | .program p => p.inspect
  | .statement s => s.inspect
  | .expression e => e.inspect

end MonkeyFrontend
