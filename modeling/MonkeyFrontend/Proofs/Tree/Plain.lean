import MonkeyFrontend.Proofs.Parser.Grammar
import MonkeyFrontend.Proofs.Source.Cutting
import MonkeyFrontend.Proofs.Tree.Same

/-! # Plain trees

Trees without conditionals and functions, as the grammar derives them from the tokens of a
text: no slot is empty, and every name, number, truth value and operator is that of its token,
which spells it (`Derives.plain`).
-/
namespace MonkeyFrontend

/-! ## Trees without conditionals and functions -/

mutual

/-- Whether an expression contains no conditional and no function. -/
def Expr.straight : Expr → Bool
  | .identifier _ | .integer _ _ | .boolean _ _ => true
  | .unary _ _ r => Expr.optionStraight r
  | .binary _ l _ r => l.straight && Expr.optionStraight r
  | .conditional _ _ _ _ | .function _ _ _ => false

/-- Whether an optional expression contains no conditional and no function. -/
def Expr.optionStraight : Option Expr → Bool
  | none => true
  | some e => e.straight

end

mutual

/-- Whether a statement contains no conditional and no function. -/
def Stmt.straight : Stmt → Bool
  | .letting _ _ v | .returning _ v | .expression _ v => Expr.optionStraight v
  | .block b => b.straight

/-- Whether statements contain no conditional and no function. -/
def Stmt.listStraight : List Stmt → Bool
  | [] => true
  | s :: ss => s.straight && Stmt.listStraight ss

/-- Whether a block contains no conditional and no function. -/
def Block.straight : Block → Bool
  | .mk _ ss => Stmt.listStraight ss

end

/-- Whether a program contains no conditional and no function. -/
def Program.straight (p : Program) : Bool := Stmt.listStraight p.statements

/-! ## Plain trees -/

/-- **A plain expression**: every node carries a token that spells it, and no operand is
missing. -/
inductive Expr.Plain : Expr → Prop where
  | identifier {t : Token} : t.kind = .ident → Spells t.kind t.literal →
      Plain (.identifier ⟨t, t.literal⟩)
  | integer {t : Token} : t.kind = .int → Spells t.kind t.literal → t.literal.length ≤ 4300 →
      Plain (.integer t (decimalValue t.literal))
  | boolean {t : Token} : t.kind = .trueWord ∨ t.kind = .falseWord → Spells t.kind t.literal →
      Plain (.boolean t (t.kind == .trueWord))
  | unary {o : Token} {e : Expr} : o.kind = .minus ∨ o.kind = .bang →
      Spells o.kind o.literal → e.Plain → Plain (.unary o o.literal (some e))
  | binary {k : Nat} {o : Token} {l r : Expr} : o.kind ∈ Grammar.operators k →
      Spells o.kind o.literal → l.Plain → r.Plain → Plain (.binary o l o.literal (some r))

/-- **A plain statement.** -/
inductive Stmt.Plain : Stmt → Prop where
  | letting {t i : Token} {e : Expr} : t.kind = .letWord → Spells t.kind t.literal →
      i.kind = .ident → Spells i.kind i.literal → e.Plain →
      Plain (.letting t (some ⟨i, i.literal⟩) (some e))
  | returning {t : Token} {e : Expr} : t.kind = .returnWord → Spells t.kind t.literal →
      e.Plain → Plain (.returning t (some e))
  | expression {t : Token} {e : Expr} : e.Plain → Plain (.expression t (some e))

/-- An expression within an expression that has no conditional and no function. -/
inductive Expr.Within (e : Expr) : Expr → Prop where
  | self : Within e e
  | operand {t o r} : Within e r → Within e (.unary t o (some r))
  | left {t l o r} : Within e l → Within e (.binary t l o r)
  | right {t l o r} : Within e r → Within e (.binary t l o (some r))

/-- The expression of a statement. -/
def Stmt.value? : Stmt → Option Expr
  | .letting _ _ v | .returning _ v | .expression _ v => v
  | .block _ => none

/-- An expression of a program without conditionals and functions. -/
def Program.Holds (p : Program) (e : Expr) : Prop :=
  ∃ s ∈ p.statements, ∃ v ∈ s.value?, e.Within v

theorem Expr.Plain.of_within {e f : Expr} (h : e.Within f) (hf : f.Plain) : e.Plain := by
  induction h with
  | self => exact hf
  | operand _ ih =>
    cases hf with
    | unary _ _ he => exact ih he
  | left _ ih =>
    cases hf with
    | binary _ _ hl _ => exact ih hl
  | right _ ih =>
    cases hf with
    | binary _ _ _ hr => exact ih hr

/-- The expressions of plain statements are plain. -/
theorem Program.Holds.plain {p : Program} {e : Expr} (h : p.Holds e)
    (hp : ∀ s ∈ p.statements, s.Plain) : e.Plain := by
  obtain ⟨s, hs, v, hv, hwithin⟩ := h
  cases hp s hs with
  | letting _ _ _ _ he | returning _ _ he | expression he =>
    obtain rfl := Option.some.inj hv
    exact he.of_within hwithin

/-! ## What is derived is plain -/

namespace Grammar

/-- What is plain in the tree of a phrase without conditionals and functions. -/
def Phrase.Plain : (x : Phrase) → x.Tree → Prop
  | .expression _, e | .values, e => e.straight → e.Plain
  | .statement, s => s.straight → s.Plain
  | .statements, ss => Stmt.listStraight ss → ∀ s ∈ ss, s.Plain
  | _, _ => True

/-- **What the grammar derives without conditionals and functions is plain.** -/
theorem Derives.plain {x : Phrase} {ts rest : List Token} {v : x.Tree}
    (h : Derives x ts v rest) (hts : ∀ t ∈ ts, Spells t.kind t.literal) : x.Plain v := by
  induction h with
  | tighter _ _ _ ih | value _ _ ih => exact ih hts
  | @binary k ts mid rest l r o hmem hleft _ ihl ihr =>
    intro hstraight
    rw [Expr.straight, Bool.and_eq_true] at hstraight
    have hmid : ∀ t ∈ o :: mid, Spells t.kind t.literal :=
      fun t ht => hts t (hleft.suffix.subset ht)
    obtain ⟨ho, hmid⟩ := List.forall_mem_cons.mp hmid
    exact .binary hmem ho (ihl hts hstraight.1) (ihr hmid hstraight.2)
  | unary ho _ ih =>
    intro hstraight
    obtain ⟨hspell, hts⟩ := List.forall_mem_cons.mp hts
    exact .unary ho hspell (ih hts hstraight)
  | identifier ht => exact fun _ => .identifier ht (hts _ List.mem_cons_self)
  | integer ht hle => exact fun _ => .integer ht (hts _ List.mem_cons_self) hle
  | boolean ht => exact fun _ => .boolean ht (hts _ List.mem_cons_self)
  | grouped _ _ _ ih => exact ih (List.forall_mem_cons.mp hts).2
  | conditional | function => nofun
  | no_statements => exact fun _ => by simp
  | statements hs _ ih₁ ih₂ =>
    intro hstraight
    rw [Stmt.listStraight, Bool.and_eq_true] at hstraight
    exact List.forall_mem_cons.mpr ⟨ih₁ hts hstraight.1,
      ih₂ (fun t ht => hts t (hs.suffix.subset ht)) hstraight.2⟩
  | letting_closed ht hi _ _ _ ih | letting_end ht hi _ _ ih =>
    intro hstraight
    obtain ⟨hlet, hts⟩ := List.forall_mem_cons.mp hts
    obtain ⟨hname, hts⟩ := List.forall_mem_cons.mp hts
    exact .letting ht hlet hi hname (ih (List.forall_mem_cons.mp hts).2 hstraight)
  | returning_closed ht _ _ ih | returning_end ht _ ih =>
    intro hstraight
    obtain ⟨hreturn, hts⟩ := List.forall_mem_cons.mp hts
    exact .returning ht hreturn (ih hts hstraight)
  | expression_closed _ _ ih | expression _ _ ih =>
    exact fun hstraight => .expression (ih hts hstraight)
  | values h _ _ _ ih => exact ih fun t ht => hts t (h.suffix.subset ht)
  | _ => trivial

end Grammar
end MonkeyFrontend
