import MonkeyFrontend.Json.Basic
import MonkeyFrontend.Tree.Basic

/-! # Trees as structured data

Every node becomes a record of its kind, the place of its token and its slots, empty slots
included.  The texts of tokens are left out.
-/
namespace MonkeyFrontend

/-- The record of a node of some kind with some slots. -/
def Token.record (t : Token) (kind : String) (slots : List (String × Json)) : Json :=
  .record (("kind", .text kind) :: ("line", .int t.position.line)
    :: ("col", .int t.position.column) :: slots)

/-- A name as data. -/
def Identifier.toJson (i : Identifier) : Json :=
  i.token.record "Identifier" [("value", .text i.name)]

/-- An optional name as data. -/
def Identifier.optionToJson : Option Identifier → Json
  | none => .null
  | some i => i.toJson

mutual

/-- An expression as data. -/
def Expr.toJson : Expr → Json
  | .identifier i => i.toJson
  | .integer t v => t.record "IntegerLiteral" [("value", .int v)]
  | .boolean t v => t.record "BooleanLiteral" [("value", .bool v)]
  | .unary t o r =>
    t.record "PrefixExpression" [("operator", .text o), ("right", Expr.optionToJson r)]
  | .binary t l o r =>
    t.record "InfixExpression"
      [("left", l.toJson), ("operator", .text o), ("right", Expr.optionToJson r)]
  | .conditional t c b a =>
    t.record "IfExpression"
      [("condition", Expr.optionToJson c), ("consequence", b.toJson),
        ("alternative", Block.optionToJson a)]
  | .function t ps b =>
    t.record "FunctionLiteral"
      [("parameters", .list (ps.map Identifier.toJson)), ("body", b.toJson)]

/-- An optional expression as data. -/
def Expr.optionToJson : Option Expr → Json
  | none => .null
  | some e => e.toJson

/-- A statement as data. -/
def Stmt.toJson : Stmt → Json
  | .letting t n v =>
    t.record "LetStatement"
      [("name", Identifier.optionToJson n), ("value", Expr.optionToJson v)]
  | .returning t v => t.record "ReturnStatement" [("value", Expr.optionToJson v)]
  | .expression t v => t.record "ExpressionStatement" [("value", Expr.optionToJson v)]
  | .block b => b.toJson

/-- Statements as data. -/
def Stmt.listToJson : List Stmt → List Json
  | [] => []
  | s :: ss => s.toJson :: Stmt.listToJson ss

/-- A block as data. -/
def Block.toJson : Block → Json
  | .mk t ss => t.record "BlockStatement" [("statements", .list (Stmt.listToJson ss))]

/-- An optional block as data. -/
def Block.optionToJson : Option Block → Json
  | none => .null
  | some b => b.toJson

end

/-- A program as data. -/
def Program.toJson (p : Program) : Json :=
  .record [("kind", .text "Program"), ("statements", .list (Stmt.listToJson p.statements))]

/-- Any tree as data. -/
def Node.toJson : Node → Json
  | .program p => p.toJson
  | .statement s => s.toJson
  | .expression e => e.toJson

end MonkeyFrontend
