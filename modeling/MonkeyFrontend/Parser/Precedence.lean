import MonkeyFrontend.Token.Kind

/-! # Precedences

How tightly operators bind.  Every binary operator has a precedence; any other kind has the
lowest, so that no expression continues over it.
-/
namespace MonkeyFrontend

/-- A level of binding, the loosest first. -/
inductive Precedence where
  | lowest
  | equality
  | comparison
  | sum
  | product
  | unary
  | call
deriving DecidableEq, Repr

namespace Precedence

/-- Every level, the loosest first. -/
def all : List Precedence := [lowest, equality, comparison, sum, product, unary, call]

/-- The place of a level in the order. -/
def rank : Precedence → Nat
  | lowest => 0
  | equality => 1
  | comparison => 2
  | sum => 3
  | product => 4
  | unary => 5
  | call => 6

/-- The word that names a level. -/
def name : Precedence → String
  | lowest => "LOWEST"
  | equality => "EQUALS"
  | comparison => "LESSGREATER"
  | sum => "SUM"
  | product => "PRODUCT"
  | unary => "PREFIX"
  | call => "CALL"

/-- The level that a word names. -/
def ofName? (s : String) : Option Precedence := all.find? fun p => p.name == s

instance : LT Precedence := ⟨fun p q => p.rank < q.rank⟩

instance : LE Precedence := ⟨fun p q => p.rank ≤ q.rank⟩

instance (p q : Precedence) : Decidable (p < q) := inferInstanceAs (Decidable (p.rank < q.rank))

instance (p q : Precedence) : Decidable (p ≤ q) := inferInstanceAs (Decidable (p.rank ≤ q.rank))

end Precedence

namespace Kind

/-- The precedence of a binary operator. -/
def operator? : Kind → Option Precedence
  | eq => some .equality
  | notEq => some .equality
  | lt => some .comparison
  | gt => some .comparison
  | plus => some .sum
  | minus => some .sum
  | asterisk => some .product
  | slash => some .product
  | _ => none

/-- How tightly a kind binds to the expression before it. -/
def precedence (k : Kind) : Precedence := k.operator?.getD .lowest

/-- Whether a kind can begin an expression. -/
def startsExpression : Kind → Bool
  | ident => true
  | int => true
  | trueWord => true
  | falseWord => true
  | bang => true
  | minus => true
  | lparen => true
  | ifWord => true
  | functionWord => true
  | _ => false

theorem ne_eof_of_lt_precedence {k : Kind} {p : Precedence} (h : p < k.precedence) :
    k ≠ eof := by
  rintro rfl
  exact Nat.not_lt_zero _ h

end Kind

end MonkeyFrontend
