import MonkeyFrontend.Tree.Basic

/-! # The canonical text of a tree

Operators stand between parentheses, so that the tree can be seen in the text; an empty
slot leaves no trace.
-/
namespace MonkeyFrontend

/-- The text of an optional name. -/
def Identifier.renderOption : Option Identifier → String
  | none => ""
  | some i => i.name

/-- Names with a comma and a space between them. -/
def Identifier.renderList : List Identifier → String
  | [] => ""
  | [i] => i.name
  | i :: is => i.name ++ ", " ++ Identifier.renderList is

mutual

/-- The text of an expression. -/
def Expr.render : Expr → String
  | .identifier i => i.name
  | .integer t _ => t.literal
  | .boolean t _ => t.literal
  | .unary _ o r => "(" ++ o ++ Expr.renderOption r ++ ")"
  | .binary _ l o r => "(" ++ l.render ++ " " ++ o ++ " " ++ Expr.renderOption r ++ ")"
  | .conditional _ c b a =>
    "if" ++ Expr.renderOption c ++ " " ++ b.render ++ Block.renderAlternative a
  | .function t ps b => t.literal ++ "(" ++ Identifier.renderList ps ++ ") " ++ b.render

/-- The text of an optional expression. -/
def Expr.renderOption : Option Expr → String
  | none => ""
  | some e => e.render

/-- The text of a statement. -/
def Stmt.render : Stmt → String
  | .letting t n v =>
    t.literal ++ " " ++ Identifier.renderOption n ++ " = " ++ Expr.renderOption v ++ ";"
  | .returning t v => t.literal ++ " " ++ Expr.renderOption v ++ ";"
  | .expression _ v => Expr.renderOption v
  | .block b => b.render

/-- The texts of statements, one behind the other. -/
def Stmt.renderList : List Stmt → String
  | [] => ""
  | s :: ss => s.render ++ Stmt.renderList ss

/-- The text of a block: that of its statements, without the braces. -/
def Block.render : Block → String
  | .mk _ ss => Stmt.renderList ss

/-- The text of an optional alternative. -/
def Block.renderAlternative : Option Block → String
  | none => ""
  | some b => "else " ++ b.render

end

/-- The text of a program. -/
def Program.render (p : Program) : String := Stmt.renderList p.statements

/-- The text of any tree. -/
def Node.render : Node → String
  | .program p => p.render
  | .statement s => s.render
  | .expression e => e.render

end MonkeyFrontend
