import MonkeyFrontend.Tree.Basic

/-! # The nodes of a tree

`nodes` lists the nodes of a tree in the order in which a text writes them: a binary
expression stands between its operands, every other node before its parts, and the parts
stand from left to right.  The tokens of a tree, its empty slots and its statement lists are
all read off this one list.
-/
namespace MonkeyFrontend

/-- A name as a node. -/
def Identifier.node (i : Identifier) : Node := .expression (.identifier i)

mutual

/-- The nodes of an expression. -/
def Expr.nodes : Expr → List Node
  | .identifier i => [i.node]
  | .integer t v => [.expression (.integer t v)]
  | .boolean t v => [.expression (.boolean t v)]
  | .unary t o r => .expression (.unary t o r) :: Expr.optionNodes r
  | .binary t l o r => l.nodes ++ .expression (.binary t l o r) :: Expr.optionNodes r
  | .conditional t c b a =>
    .expression (.conditional t c b a) :: (Expr.optionNodes c ++ (b.nodes ++ Block.optionNodes a))
  | .function t ps b => .expression (.function t ps b) :: (ps.map Identifier.node ++ b.nodes)

/-- The nodes of an optional expression. -/
def Expr.optionNodes : Option Expr → List Node
  | none => []
  | some e => e.nodes

/-- The nodes of a statement. -/
def Stmt.nodes : Stmt → List Node
  | .letting t n v =>
    .statement (.letting t n v) :: (n.toList.map Identifier.node ++ Expr.optionNodes v)
  | .returning t v => .statement (.returning t v) :: Expr.optionNodes v
  | .expression t v => .statement (.expression t v) :: Expr.optionNodes v
  | .block b => b.nodes

/-- The nodes of statements. -/
def Stmt.listNodes : List Stmt → List Node
  | [] => []
  | s :: ss => s.nodes ++ Stmt.listNodes ss

/-- The nodes of a block. -/
def Block.nodes : Block → List Node
  | .mk t ss => .statement (.block (.mk t ss)) :: Stmt.listNodes ss

/-- The nodes of an optional block. -/
def Block.optionNodes : Option Block → List Node
  | none => []
  | some b => b.nodes

end

/-- The nodes of a program. -/
def Program.nodes (p : Program) : List Node := Stmt.listNodes p.statements

/-- The nodes of any tree. -/
def Node.nodes : Node → List Node
  | .program p => p.nodes
  | .statement s => s.nodes
  | .expression e => e.nodes

/-! ## Empty slots -/

/-- Whether a slot of a node is empty.  The alternative of a conditional may be missing. -/
def Node.incomplete : Node → Bool
  | .statement (.letting _ n v) => n.isNone || v.isNone
  | .statement (.returning _ v) | .statement (.expression _ v) => v.isNone
  | .expression (.unary _ _ r) | .expression (.binary _ _ _ r) => r.isNone
  | .expression (.conditional _ c _ _) => c.isNone
  | _ => false

/-- How many nodes of a list are incomplete. -/
def holes (ns : List Node) : Nat := ns.countP Node.incomplete

theorem holes_cons (n : Node) (ns : List Node) :
    holes (n :: ns) = holes ns + n.incomplete.toNat := by
  rw [holes, List.countP_cons]
  cases n.incomplete <;> rfl

theorem holes_append (ms ns : List Node) : holes (ms ++ ns) = holes ms + holes ns :=
  List.countP_append

/-- Names have no slots. -/
theorem holes_identifiers (is : List Identifier) : holes (is.map Identifier.node) = 0 := by
  induction is with
  | nil => rfl
  | cons i is ih =>
    rw [List.map_cons, holes_cons, ih]
    rfl

/-! ## Tokens and statement lists -/

/-- The token that introduced a node. -/
def Node.token? : Node → Option Token
  | .program _ => none
  | .statement s => some s.token
  | .expression e => some e.token

/-- The token that a node owns.  An expression as a statement only borrows the first token of
its text. -/
def Node.owned? : Node → Option Token
  | .statement (.expression _ _) => none
  | n => n.token?

/-- The statement list that a node holds. -/
def Node.list? : Node → Option (List Stmt)
  | .program p => some p.statements
  | .statement (.block b) => some b.statements
  | _ => none

end MonkeyFrontend
