import MonkeyFrontend.Tree.Basic

/-! # Equality of trees up to positions

Two trees are the same when they have the same shape, the same texts and values, and at
corresponding nodes tokens of the same kind and text.
-/
namespace MonkeyFrontend

/-- Whether two names agree up to the positions of their tokens. -/
def Identifier.same (a b : Identifier) : Bool := a.token.same b.token && a.name == b.name

/-- Whether two optional names agree up to positions. -/
def Identifier.sameOption : Option Identifier → Option Identifier → Bool
  | none, none => true
  | some a, some b => a.same b
  | _, _ => false

/-- Whether two lists of names agree up to positions. -/
def Identifier.sameList : List Identifier → List Identifier → Bool
  | [], [] => true
  | a :: as, b :: bs => a.same b && Identifier.sameList as bs
  | _, _ => false

mutual

/-- Whether two expressions agree up to positions. -/
def Expr.same : Expr → Expr → Bool
  | .identifier a, .identifier b => a.same b
  | .integer t v, .integer u w => t.same u && v == w
  | .boolean t v, .boolean u w => t.same u && v == w
  | .unary t o r, .unary u p q => t.same u && o == p && Expr.sameOption r q
  | .binary t l o r, .binary u k p q =>
    t.same u && l.same k && o == p && Expr.sameOption r q
  | .conditional t c b a, .conditional u d k e =>
    t.same u && Expr.sameOption c d && b.same k && Block.sameOption a e
  | .function t ps b, .function u qs k => t.same u && Identifier.sameList ps qs && b.same k
  | _, _ => false

/-- Whether two optional expressions agree up to positions. -/
def Expr.sameOption : Option Expr → Option Expr → Bool
  | none, none => true
  | some a, some b => a.same b
  | _, _ => false

/-- Whether two statements agree up to positions. -/
def Stmt.same : Stmt → Stmt → Bool
  | .letting t n v, .letting u m w =>
    t.same u && Identifier.sameOption n m && Expr.sameOption v w
  | .returning t v, .returning u w => t.same u && Expr.sameOption v w
  | .expression t v, .expression u w => t.same u && Expr.sameOption v w
  | .block a, .block b => a.same b
  | _, _ => false

/-- Whether two lists of statements agree up to positions. -/
def Stmt.sameList : List Stmt → List Stmt → Bool
  | [], [] => true
  | a :: as, b :: bs => a.same b && Stmt.sameList as bs
  | _, _ => false

/-- Whether two blocks agree up to positions. -/
def Block.same : Block → Block → Bool
  | .mk t ss, .mk u rs => t.same u && Stmt.sameList ss rs

/-- Whether two optional blocks agree up to positions. -/
def Block.sameOption : Option Block → Option Block → Bool
  | none, none => true
  | some a, some b => a.same b
  | _, _ => false

end

/-- Whether two programs agree up to positions. -/
def Program.same (a b : Program) : Bool := Stmt.sameList a.statements b.statements

/-- Whether two trees of any kind agree up to positions. -/
def Node.same : Node → Node → Bool
  | .program a, .program b => a.same b
  | .statement a, .statement b => a.same b
  | .expression a, .expression b => a.same b
  | _, _ => false

end MonkeyFrontend
