import Mathlib.Data.List.Forall2
import MonkeyFrontend.Proofs.Tree.MapToken
import MonkeyFrontend.Tree.Render
import MonkeyFrontend.Tree.Same

/-! # Trees without positions

Two trees are the same when they are equal once the positions of their tokens are left out
(`Expr.same_iff` and its companions).  So whatever does not look at positions agrees on trees that
are the same, as the canonical text does (`Stmt.render_eq_of_alike`).
-/
namespace MonkeyFrontend

/-- A token without its position. -/
def Token.bare (t : Token) : Token := ⟨t.kind, t.literal, Position.unknown⟩

theorem Token.same_iff_bare {a b : Token} : a.same b = true ↔ a.bare = b.bare := by
  rw [Token.same_iff, Token.bare, Token.bare, Token.mk.injEq]
  simp

theorem Identifier.same_iff {a b : Identifier} :
    a.same b = true ↔ a.mapToken Token.bare = b.mapToken Token.bare := by
  simp [Identifier.same, Identifier.mapToken, Token.same_iff_bare]

theorem Identifier.sameOption_iff {a b : Option Identifier} :
    Identifier.sameOption a b = true ↔
      a.map (Identifier.mapToken Token.bare) = b.map (Identifier.mapToken Token.bare) := by
  cases a <;> cases b <;> simp [Identifier.sameOption, Identifier.same_iff]

theorem Identifier.sameList_iff {as bs : List Identifier} :
    Identifier.sameList as bs = true ↔
      as.map (Identifier.mapToken Token.bare) = bs.map (Identifier.mapToken Token.bare) := by
  induction as generalizing bs with
  | nil => cases bs <;> simp [Identifier.sameList]
  | cons a as ih => cases bs <;> simp [Identifier.sameList, Identifier.same_iff, ih]

mutual

/-- **Two expressions are the same when they are equal without positions.** -/
theorem Expr.same_iff : (a b : Expr) →
    (a.same b = true ↔ a.mapToken Token.bare = b.mapToken Token.bare)
  | .identifier i, b => by
    cases b <;> simp [Expr.same, Expr.mapToken, Identifier.same_iff]
  | .integer t v, b => by
    cases b <;> simp [Expr.same, Expr.mapToken, Token.same_iff_bare]
  | .boolean t v, b => by
    cases b <;> simp [Expr.same, Expr.mapToken, Token.same_iff_bare]
  | .unary t o r, b => by
    have ih := Expr.sameOption_iff r
    cases b <;> simp [Expr.same, Expr.mapToken, Token.same_iff_bare, ih, and_assoc]
  | .binary t l o r, b => by
    have ihl := Expr.same_iff l
    have ihr := Expr.sameOption_iff r
    cases b <;> simp [Expr.same, Expr.mapToken, Token.same_iff_bare, ihl, ihr, and_assoc]
  | .conditional t c k a, b => by
    have ihc := Expr.sameOption_iff c
    have ihk := Block.same_iff k
    have iha := Block.sameOption_iff a
    cases b <;> simp [Expr.same, Expr.mapToken, Token.same_iff_bare, ihc, ihk, iha, and_assoc]
  | .function t ps k, b => by
    have ih := Block.same_iff k
    cases b <;>
      simp [Expr.same, Expr.mapToken, Token.same_iff_bare, Identifier.sameList_iff, ih, and_assoc]

theorem Expr.sameOption_iff : (a b : Option Expr) → (Expr.sameOption a b = true ↔
    Expr.optionMapToken Token.bare a = Expr.optionMapToken Token.bare b)
  | none, b => by cases b <;> simp [Expr.sameOption, Expr.optionMapToken]
  | some a, b => by
    have ih := Expr.same_iff a
    cases b <;> simp [Expr.sameOption, Expr.optionMapToken, ih]

theorem Stmt.same_iff : (a b : Stmt) →
    (a.same b = true ↔ a.mapToken Token.bare = b.mapToken Token.bare)
  | .letting t n v, b => by
    have ih := Expr.sameOption_iff v
    cases b <;>
      simp [Stmt.same, Stmt.mapToken, Token.same_iff_bare, Identifier.sameOption_iff, ih,
        and_assoc]
  | .returning t v, b => by
    have ih := Expr.sameOption_iff v
    cases b <;> simp [Stmt.same, Stmt.mapToken, Token.same_iff_bare, ih]
  | .expression t v, b => by
    have ih := Expr.sameOption_iff v
    cases b <;> simp [Stmt.same, Stmt.mapToken, Token.same_iff_bare, ih]
  | .block k, b => by
    have ih := Block.same_iff k
    cases b <;> simp [Stmt.same, Stmt.mapToken, ih]

theorem Stmt.sameList_iff : (as bs : List Stmt) → (Stmt.sameList as bs = true ↔
    Stmt.listMapToken Token.bare as = Stmt.listMapToken Token.bare bs)
  | [], bs => by cases bs <;> simp [Stmt.sameList, Stmt.listMapToken]
  | a :: as, bs => by
    have iha := Stmt.same_iff a
    have ihas := Stmt.sameList_iff as
    cases bs <;> simp [Stmt.sameList, Stmt.listMapToken, iha, ihas]

theorem Block.same_iff : (a b : Block) →
    (a.same b = true ↔ a.mapToken Token.bare = b.mapToken Token.bare)
  | .mk t ss, b => by
    have ih := Stmt.sameList_iff ss
    cases b
    simp [Block.same, Block.mapToken, Token.same_iff_bare, ih]

theorem Block.sameOption_iff : (a b : Option Block) → (Block.sameOption a b = true ↔
    Block.optionMapToken Token.bare a = Block.optionMapToken Token.bare b)
  | none, b => by cases b <;> simp [Block.sameOption, Block.optionMapToken]
  | some a, b => by
    have ih := Block.same_iff a
    cases b <;> simp [Block.sameOption, Block.optionMapToken, ih]

end

theorem Expr.same_symm {a b : Expr} (h : a.same b = true) : b.same a = true :=
  (b.same_iff a).mpr ((a.same_iff b).mp h).symm

theorem Expr.same_trans {a b c : Expr} (h : a.same b = true) (h' : b.same c = true) :
    a.same c = true :=
  (a.same_iff c).mpr (((a.same_iff b).mp h).trans ((b.same_iff c).mp h'))

/-! ## The text of trees that are the same -/

theorem Identifier.renderOption_mapToken {g : Token → Token} (n : Option Identifier) :
    Identifier.renderOption (n.map (Identifier.mapToken g)) = Identifier.renderOption n := by
  cases n <;> rfl

theorem Identifier.renderList_mapToken {g : Token → Token} (ps : List Identifier) :
    Identifier.renderList (ps.map (Identifier.mapToken g)) = Identifier.renderList ps := by
  induction ps with
  | nil => rfl
  | cons p ps ih =>
    cases ps with
    | nil => rfl
    | cons q qs =>
      rw [List.map_cons, Identifier.renderList, ih]
      · rfl
      · simp

mutual

/-- The text of a tree only takes the texts of its tokens. -/
theorem Expr.render_mapToken {g : Token → Token} (hg : ∀ t, (g t).literal = t.literal) :
    (e : Expr) → (e.mapToken g).render = e.render
  | .identifier i => rfl
  | .integer t v => hg t
  | .boolean t v => hg t
  | .unary t o r => by
    rw [Expr.mapToken, Expr.render, Expr.renderOption_mapToken hg, Expr.render]
  | .binary t l o r => by
    rw [Expr.mapToken, Expr.render, Expr.render_mapToken hg, Expr.renderOption_mapToken hg,
      Expr.render]
  | .conditional t c b a => by
    rw [Expr.mapToken, Expr.render, Expr.renderOption_mapToken hg, Block.render_mapToken hg,
      Block.renderAlternative_mapToken hg, Expr.render]
  | .function t ps b => by
    rw [Expr.mapToken, Expr.render, hg, Identifier.renderList_mapToken, Block.render_mapToken hg,
      Expr.render]

theorem Expr.renderOption_mapToken {g : Token → Token} (hg : ∀ t, (g t).literal = t.literal) :
    (v : Option Expr) → Expr.renderOption (Expr.optionMapToken g v) = Expr.renderOption v
  | none => rfl
  | some e => by
    rw [Expr.optionMapToken, Expr.renderOption, Expr.render_mapToken hg, Expr.renderOption]

theorem Stmt.render_mapToken {g : Token → Token} (hg : ∀ t, (g t).literal = t.literal) :
    (s : Stmt) → (s.mapToken g).render = s.render
  | .letting t n v => by
    rw [Stmt.mapToken, Stmt.render, hg, Identifier.renderOption_mapToken,
      Expr.renderOption_mapToken hg, Stmt.render]
  | .returning t v => by
    rw [Stmt.mapToken, Stmt.render, hg, Expr.renderOption_mapToken hg, Stmt.render]
  | .expression t v => by
    rw [Stmt.mapToken, Stmt.render, Expr.renderOption_mapToken hg, Stmt.render]
  | .block b => by rw [Stmt.mapToken, Stmt.render, Block.render_mapToken hg, Stmt.render]

theorem Stmt.renderList_mapToken {g : Token → Token} (hg : ∀ t, (g t).literal = t.literal) :
    (ss : List Stmt) → Stmt.renderList (Stmt.listMapToken g ss) = Stmt.renderList ss
  | [] => rfl
  | s :: ss => by
    rw [Stmt.listMapToken, Stmt.renderList, Stmt.render_mapToken hg, Stmt.renderList_mapToken hg,
      Stmt.renderList]

theorem Block.render_mapToken {g : Token → Token} (hg : ∀ t, (g t).literal = t.literal) :
    (b : Block) → (b.mapToken g).render = b.render
  | .mk t ss => by rw [Block.mapToken, Block.render, Stmt.renderList_mapToken hg, Block.render]

theorem Block.renderAlternative_mapToken {g : Token → Token}
    (hg : ∀ t, (g t).literal = t.literal) : (a : Option Block) →
    Block.renderAlternative (Block.optionMapToken g a) = Block.renderAlternative a
  | none => rfl
  | some b => by
    rw [Block.optionMapToken, Block.renderAlternative, Block.render_mapToken hg,
      Block.renderAlternative]

end

/-! ## Statements up to the token of an expression -/

/-- Whether two statements agree up to positions and, where they are expressions, up to the
token at which the expression begins. -/
def Stmt.alike : Stmt → Stmt → Bool
  | .expression _ v, .expression _ w => Expr.sameOption v w
  | a, b => a.same b

theorem Stmt.alike_expression {t : Token} {e : Expr} {s : Stmt}
    (h : (Stmt.expression t (some e)).alike s = true) :
    ∃ u f, s = .expression u (some f) ∧ e.same f = true := by
  cases s with
  | expression u v =>
    cases v with
    | none => simp [Stmt.alike, Expr.sameOption] at h
    | some f => exact ⟨u, f, rfl, by simpa [Stmt.alike, Expr.sameOption] using h⟩
  | letting | returning | block => simp [Stmt.alike, Stmt.same] at h

/-- Statements that are alike have the same text. -/
theorem Stmt.render_eq_of_alike {a b : Stmt} (h : a.alike b = true) : a.render = b.render := by
  have hbare : ∀ t : Token, t.bare.literal = t.literal := fun _ => rfl
  unfold Stmt.alike at h
  split at h
  · rw [Stmt.render, ← Expr.renderOption_mapToken hbare, (Expr.sameOption_iff _ _).mp h,
      Expr.renderOption_mapToken hbare, Stmt.render]
  · rw [← Stmt.render_mapToken hbare a, (a.same_iff b).mp h, Stmt.render_mapToken hbare b]

/-- So do lists of them. -/
theorem Stmt.renderList_eq_of_alike {as bs : List Stmt}
    (h : List.Forall₂ (fun a b => a.alike b = true) as bs) :
    Stmt.renderList as = Stmt.renderList bs := by
  induction h with
  | nil => rfl
  | cons halike _ ih => rw [Stmt.renderList, Stmt.renderList, Stmt.render_eq_of_alike halike, ih]

end MonkeyFrontend
