import MonkeyFrontend.Tree.Basic

/-! # Trees with other tokens

`mapToken g` puts the token `g t` in the place of each token `t` of a tree and leaves all
else as it is.
-/
namespace MonkeyFrontend

/-- A name with another token. -/
def Identifier.mapToken (g : Token → Token) (i : Identifier) : Identifier := ⟨g i.token, i.name⟩

mutual

/-- An expression with other tokens. -/
def Expr.mapToken (g : Token → Token) : Expr → Expr
  | .identifier i => .identifier (i.mapToken g)
  | .integer t v => .integer (g t) v
  | .boolean t v => .boolean (g t) v
  | .unary t o r => .unary (g t) o (Expr.optionMapToken g r)
  | .binary t l o r => .binary (g t) (l.mapToken g) o (Expr.optionMapToken g r)
  | .conditional t c b a =>
    .conditional (g t) (Expr.optionMapToken g c) (b.mapToken g) (Block.optionMapToken g a)
  | .function t ps b => .function (g t) (ps.map (Identifier.mapToken g)) (b.mapToken g)

/-- An optional expression with other tokens. -/
def Expr.optionMapToken (g : Token → Token) : Option Expr → Option Expr
  | none => none
  | some e => some (e.mapToken g)

/-- A statement with other tokens. -/
def Stmt.mapToken (g : Token → Token) : Stmt → Stmt
  | .letting t n v => .letting (g t) (n.map (Identifier.mapToken g)) (Expr.optionMapToken g v)
  | .returning t v => .returning (g t) (Expr.optionMapToken g v)
  | .expression t v => .expression (g t) (Expr.optionMapToken g v)
  | .block b => .block (b.mapToken g)

/-- Statements with other tokens. -/
def Stmt.listMapToken (g : Token → Token) : List Stmt → List Stmt
  | [] => []
  | s :: ss => s.mapToken g :: Stmt.listMapToken g ss

/-- A block with other tokens. -/
def Block.mapToken (g : Token → Token) : Block → Block
  | .mk t ss => .mk (g t) (Stmt.listMapToken g ss)

/-- An optional block with other tokens. -/
def Block.optionMapToken (g : Token → Token) : Option Block → Option Block
  | none => none
  | some b => some (b.mapToken g)

end

mutual

/-- Putting every token in its own place changes nothing. -/
theorem Expr.mapToken_id : (e : Expr) → e.mapToken id = e
  | .identifier i => rfl
  | .integer t v => rfl
  | .boolean t v => rfl
  | .unary t o r => by rw [Expr.mapToken, Expr.optionMapToken_id, id]
  | .binary t l o r => by rw [Expr.mapToken, Expr.mapToken_id, Expr.optionMapToken_id, id]
  | .conditional t c b a => by
    rw [Expr.mapToken, Expr.optionMapToken_id, Block.mapToken_id, Block.optionMapToken_id, id]
  | .function t ps b => by
    have hps : ps.map (Identifier.mapToken id) = ps := List.map_id ps
    rw [Expr.mapToken, hps, Block.mapToken_id, id]

theorem Expr.optionMapToken_id : (v : Option Expr) → Expr.optionMapToken id v = v
  | none => rfl
  | some e => by rw [Expr.optionMapToken, Expr.mapToken_id]

theorem Stmt.mapToken_id : (s : Stmt) → s.mapToken id = s
  | .letting t n v => by
    have hn : n.map (Identifier.mapToken id) = n := Option.map_id_apply
    rw [Stmt.mapToken, hn, Expr.optionMapToken_id, id]
  | .returning t v => by rw [Stmt.mapToken, Expr.optionMapToken_id, id]
  | .expression t v => by rw [Stmt.mapToken, Expr.optionMapToken_id, id]
  | .block b => by rw [Stmt.mapToken, Block.mapToken_id]

theorem Stmt.listMapToken_id : (ss : List Stmt) → Stmt.listMapToken id ss = ss
  | [] => rfl
  | s :: ss => by rw [Stmt.listMapToken, Stmt.mapToken_id, Stmt.listMapToken_id]

theorem Block.mapToken_id : (b : Block) → b.mapToken id = b
  | .mk t ss => by rw [Block.mapToken, Stmt.listMapToken_id, id]

theorem Block.optionMapToken_id : (b : Option Block) → Block.optionMapToken id b = b
  | none => rfl
  | some b => by rw [Block.optionMapToken, Block.mapToken_id]

end

end MonkeyFrontend
