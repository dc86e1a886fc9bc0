import MonkeyFrontend.Proofs.Text.Balance
import MonkeyFrontend.Proofs.Tree.Canonical
import MonkeyFrontend.Tree.Render

/-! # The characters of canonical texts

The canonical text of a tree is made of the names, numbers, keywords and operators of its nodes,
and of the signs that stand between them.  In a tree that agrees with tokens of a text these are
plain (`Spells.plain`), whatever else the text holds: an illegal token begins at most an expression
statement, and the text of such a token is not shown.  Parentheses come in pairs around a part, so
the whole is balanced (`Program.tidy_render`).
-/
namespace MonkeyFrontend

/-- The characters of words, numbers and operators, and those that stand between them. -/
def isPlain (c : Char) : Bool :=
  isLetter c || isDigit c || [' ', '+', '-', '*', '/', '<', '>', '=', '!', ';', ','].contains c

/-- The characters of canonical texts. -/
def isCanonical (c : Char) : Bool := isPlain c || c = '(' || c = ')'

/-- By how much a character changes the depth of parentheses. -/
def parenthesis (c : Char) : Int := if c = '(' then 1 else if c = ')' then -1 else 0

/-- A plain character is no parenthesis. -/
theorem parenthesis_of_plain {c : Char} (h : isPlain c) : parenthesis c = 0 := by
  have hopen : c ≠ '(' := by
    rintro rfl
    contradiction
  have hclose : c ≠ ')' := by
    rintro rfl
    contradiction
  rw [parenthesis, if_neg hopen, if_neg hclose]

/-- The kinds of tokens whose texts are plain: all but parentheses, braces and illegal ones. -/
def Kind.isPlain : Kind → Bool
  | illegal | lparen | rparen | lbrace | rbrace => false
  | _ => true

theorem Spells.plain {k : Kind} {w : String} (h : Spells k w) (hk : k.isPlain) :
    ∀ c ∈ w.toList, isPlain c := by
  have hletters : (∀ c ∈ w.toList, isLetter c) → ∀ c ∈ w.toList, isPlain c := by
    intro hw c hc
    rw [isPlain, hw c hc, Bool.true_or, Bool.true_or]
  cases h with
  | keyword hmem => exact hletters (letters_of_keyword hmem).2
  | name _ hw _ => exact hletters hw
  | number _ hw =>
    intro c hc
    rw [isPlain, hw c hc, Bool.or_true, Bool.true_or]
  | symbol hmem =>
    have hall : ∀ p ∈ Kind.symbols, p.2.isPlain → p.1.toList.all isPlain := by decide
    exact List.all_eq_true.mp (hall _ hmem hk)
  | other => contradiction

/-- **A canonical text**: it has no other characters than these, and its parentheses match. -/
structure Tidy (s : String) : Prop where
  alphabet : ∀ c ∈ s.toList, isCanonical c
  closed : total parenthesis s.toList = 0
  nested : NeverBelow parenthesis s.toList

namespace Tidy

variable {s t : String}

theorem of_plain (h : ∀ c ∈ s.toList, isPlain c) : Tidy s where
  alphabet c hc := by rw [isCanonical, h c hc, Bool.true_or, Bool.true_or]
  closed := total_of_weightless fun c hc => parenthesis_of_plain (h c hc)
  nested := .of_weightless fun c hc => parenthesis_of_plain (h c hc)

/-- A text that is known is looked through. -/
theorem of_all (h : s.toList.all isPlain) : Tidy s := of_plain (List.all_eq_true.mp h)

theorem blank : Tidy " " := .of_all rfl

theorem semicolon : Tidy ";" := .of_all rfl

theorem append (h : Tidy s) (h' : Tidy t) : Tidy (s ++ t) where
  alphabet := by
    rw [String.toList_append]
    exact List.forall_mem_append.mpr ⟨h.alphabet, h'.alphabet⟩
  closed := by rw [String.toList_append, total_append, h.closed, h'.closed, Int.add_zero]
  nested := by
    rw [String.toList_append]
    exact h.nested.append h.closed h'.nested

/-- A canonical text may stand between parentheses. -/
theorem wrap (h : Tidy s) : Tidy ("(" ++ s ++ ")") := by
  have hlist : ("(" ++ s ++ ")").toList = '(' :: s.toList ++ [')'] := by
    rw [String.toList_append, String.toList_append]
    rfl
  have hwrap := h.nested.wrap h.closed (rfl : parenthesis '(' = 1) (rfl : parenthesis ')' = -1)
  refine ⟨?_, hlist ▸ hwrap.2, hlist ▸ hwrap.1⟩
  rw [hlist]
  exact List.forall_mem_append.mpr ⟨List.forall_mem_cons.mpr ⟨rfl, h.alphabet⟩,
    List.forall_mem_singleton.mpr rfl⟩

end Tidy

/-- The text of a token that a node shows. -/
theorem Sound.tidy_literal {n : Node} {ns : List Node} {t : Token} (h : Sound (n :: ns))
    (ht : t ∈ n.token?) (hk : t.kind.isPlain) : Tidy t.literal :=
  .of_plain ((h.head ht).2.plain hk)

namespace Identifier

/-- The name of a node that agrees with its token. -/
theorem tidy_name {i : Identifier} (h : Sound [i.node]) : Tidy i.name := by
  obtain ⟨⟨hk, hname⟩, -⟩ := h.head rfl
  rw [hname]
  exact h.tidy_literal rfl (by rw [hk]; rfl)

theorem tidy_renderOption {v : Option Identifier} (h : Sound (v.toList.map node)) :
    Tidy (renderOption v) := by
  cases v with
  | none => exact .of_plain nofun
  | some i => exact tidy_name h

theorem tidy_renderList {is : List Identifier} (h : Sound (is.map node)) :
    Tidy (renderList is) := by
  induction is with
  | nil => exact .of_plain nofun
  | cons i is ih =>
    have hi : Tidy i.name := tidy_name h.single
    cases is with
    | nil => exact hi
    | cons j js => exact (hi.append (.of_all rfl)).append (ih h.tail)

end Identifier

mutual

/-- The text of an expression whose nodes agree with their tokens is canonical. -/
theorem Expr.tidy_render : (e : Expr) → Sound e.nodes → Tidy e.render
  | .identifier i, h => Identifier.tidy_name h
  | .integer t v, h => by
    obtain ⟨⟨hk, -⟩, -⟩ := h.head rfl
    exact h.tidy_literal rfl (by rw [hk]; rfl)
  | .boolean t v, h => by
    obtain ⟨⟨hk, -⟩, -⟩ := h.head rfl
    exact h.tidy_literal rfl (by rcases hk with hk | hk <;> rw [hk] <;> rfl)
  | .unary t o r, h => by
    obtain ⟨⟨hk, rfl⟩, -⟩ := h.head rfl
    have hsign : Tidy t.literal :=
      h.tidy_literal rfl (by rcases hk with hk | hk <;> rw [hk] <;> rfl)
    have hall := (hsign.append (Expr.tidy_renderOption r h.tail)).wrap
    simpa only [Expr.render, String.append_assoc] using hall
  | .binary t l o r, h => by
    obtain ⟨⟨hk, rfl⟩, -⟩ := h.right.head rfl
    have hbinary : ∀ k ∈ [Kind.plus, .minus, .asterisk, .slash, .lt, .gt, .eq, .notEq],
        k.isPlain := by decide
    have hsign : Tidy t.literal := h.right.tidy_literal rfl (hbinary _ hk)
    have hinner := (((Expr.tidy_render l h.left).append .blank).append hsign).append .blank
    have hall := (hinner.append (Expr.tidy_renderOption r h.right.tail)).wrap
    simpa only [Expr.render, String.append_assoc] using hall
  | .conditional t c b a, h => by
    have hcondition := Expr.tidy_renderOption c h.tail.left
    have hconsequence := Block.tidy_render b h.tail.right.left
    have halternative := Block.tidy_renderAlternative a h.tail.right.right
    have hword : Tidy "if" := .of_all rfl
    exact (((hword.append hcondition).append .blank).append hconsequence).append halternative
  | .function t ps b, h => by
    have hword : Tidy t.literal := h.tidy_literal rfl (by rw [(h.head rfl).1]; rfl)
    have hnames := (Identifier.tidy_renderList h.tail.left).wrap
    have hall := ((hword.append hnames).append .blank).append (Block.tidy_render b h.tail.right)
    have hsplit : ") " = ")" ++ " " := rfl
    rw [Expr.render, hsplit]
    simpa only [String.append_assoc] using hall

theorem Expr.tidy_renderOption : (v : Option Expr) → Sound (Expr.optionNodes v) →
    Tidy (Expr.renderOption v)
  | none, _ => .of_plain nofun
  | some e, h => Expr.tidy_render e h

theorem Stmt.tidy_render : (s : Stmt) → Sound s.nodes → Tidy s.render
  | .letting t n v, h => by
    have hword : Tidy t.literal := h.tidy_literal rfl (by rw [(h.head rfl).1.1]; rfl)
    have hname := Identifier.tidy_renderOption h.tail.left
    have hvalue := Expr.tidy_renderOption v h.tail.right
    have hassign : Tidy " = " := .of_all rfl
    exact ((((hword.append .blank).append hname).append hassign).append hvalue).append .semicolon
  | .returning t v, h => by
    have hword : Tidy t.literal := h.tidy_literal rfl (by rw [(h.head rfl).1]; rfl)
    have hvalue := Expr.tidy_renderOption v h.tail
    exact ((hword.append .blank).append hvalue).append .semicolon
  -- The token that an expression as a statement borrows is not shown.
  | .expression t v, h => Expr.tidy_renderOption v h.tail
  | .block b, h => Block.tidy_render b h

theorem Stmt.tidy_renderList : (ss : List Stmt) → Sound (Stmt.listNodes ss) →
    Tidy (Stmt.renderList ss)
  | [], _ => .of_plain nofun
  | s :: ss, h => (Stmt.tidy_render s h.left).append (Stmt.tidy_renderList ss h.right)

theorem Block.tidy_render : (b : Block) → Sound b.nodes → Tidy b.render
  | .mk _ ss, h => Stmt.tidy_renderList ss h.tail

theorem Block.tidy_renderAlternative : (a : Option Block) → Sound (Block.optionNodes a) →
    Tidy (Block.renderAlternative a)
  | none, _ => .of_plain nofun
  | some b, h => (Tidy.of_all rfl).append (Block.tidy_render b h)

end

/-- **The text of a program whose nodes agree with their tokens is canonical.** -/
theorem Program.tidy_render {p : Program} (h : Sound p.nodes) : Tidy p.render :=
  Stmt.tidy_renderList p.statements h

end MonkeyFrontend
