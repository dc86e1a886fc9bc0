import MonkeyFrontend.Parser.Descent
import MonkeyFrontend.Proofs.Text.Decimal
import MonkeyFrontend.Proofs.Tree.Nodes

/-! # Nodes that agree with their tokens

A node keeps the token that introduced it beside fields that say the same in another way: a name
beside its text, a number beside its digits, an operator beside its sign.  Nothing in a tree
forces the two to agree, and a tree made by hand may mix them.  `Node.Consistent` says for each
sort of node which token it has and how its fields follow from it.  That the left side of a binary
expression is there, and that the branches of a conditional and the body of a function are blocks,
is left to the types of these slots.
-/
namespace MonkeyFrontend

/-- **A node agrees with its token.**  An expression that stands as a statement only borrows a
token, which no statement of another sort begins with; in a block it is not the closing brace. -/
def Node.Consistent : Node → Prop
  | .program _ => True
  | .statement (.letting t n v) => t.kind = .letWord ∧ (v.isSome → n.isSome)
  | .statement (.returning t _) => t.kind = .returnWord
  | .statement (.expression t _) =>
    t.kind ≠ .letWord ∧ t.kind ≠ .returnWord ∧ t.kind ≠ .eof
  | .statement (.block b) =>
    b.token.kind = .lbrace ∧ ∀ x ∈ b.statements, x.token.kind ≠ .rbrace
  | .expression (.identifier i) => i.token.kind = .ident ∧ i.name = i.token.literal
  | .expression (.integer t v) =>
    t.kind = .int ∧ t.literal.length ≤ Parser.maxDigits ∧ v = Int.ofNat (decimalValue t.literal)
  | .expression (.boolean t v) =>
    (t.kind = .trueWord ∨ t.kind = .falseWord) ∧ (v = true ↔ t.kind = .trueWord)
  | .expression (.unary t o _) => (t.kind = .bang ∨ t.kind = .minus) ∧ o = t.literal
  | .expression (.binary t _ o _) =>
    t.kind ∈ [.plus, .minus, .asterisk, .slash, .lt, .gt, .eq, .notEq] ∧ o = t.literal
  | .expression (.conditional t _ _ _) => t.kind = .ifWord
  | .expression (.function t _ _) => t.kind = .functionWord

/-- Some nodes agree with their tokens. -/
def Consistent (ns : List Node) : Prop := ∀ n ∈ ns, n.Consistent

variable {n : Node} {ms ns : List Node}

namespace Consistent

theorem nil : Consistent [] := List.forall_mem_nil _

theorem cons (hn : n.Consistent) (h : Consistent ns) : Consistent (n :: ns) :=
  List.forall_mem_cons.mpr ⟨hn, h⟩

theorem append (h : Consistent ms) (h' : Consistent ns) : Consistent (ms ++ ns) :=
  List.forall_mem_append.mpr ⟨h, h'⟩

end Consistent

/-- What binds more tightly than anything is a binary operator. -/
theorem Kind.mem_binary_of_lt_precedence {k : Kind} {p : Precedence} (h : p < k.precedence) :
    k ∈ [.plus, .minus, .asterisk, .slash, .lt, .gt, .eq, .notEq] := by
  have hlowest : k.precedence ≠ .lowest := by
    intro hk
    rw [hk] at h
    exact Nat.not_lt_zero _ h
  revert hlowest
  cases k <;> decide

/-- A name agrees with the token that spells it. -/
theorem Identifier.consistent_ofToken {t : Token} (h : t.kind = .ident) :
    (ofToken t).node.Consistent := ⟨h, rfl⟩

end MonkeyFrontend
