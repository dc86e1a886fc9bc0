import Mathlib.Data.List.Basic
import MonkeyFrontend.Proofs.Tree.Written
import MonkeyFrontend.Tree.Data

/-! # The figures in the data of a tree

The data of a tree holds integers of two sorts: the lines and columns of its tokens, and the values
of its integer literals.  What is known of the two at every node is known of every integer in the
data (`Program.fits_toJson`).  No record in it names a member twice, so that its members may be
kept by name.
-/
namespace MonkeyFrontend

namespace Json

mutual

/-- **Every integer in a value is as `P` says**, and no record names a member twice. -/
def Fits (P : Int → Prop) : Json → Prop
  | int i => P i
  | list js => FitMembers P js
  | record fields => (fields.map Prod.fst).Nodup ∧ FitFields P fields
  | null | bool _ | text _ => True

/-- The members of a list fit. -/
def FitMembers (P : Int → Prop) : List Json → Prop
  | [] => True
  | j :: js => j.Fits P ∧ FitMembers P js

/-- The members of a record fit. -/
def FitFields (P : Int → Prop) : List (String × Json) → Prop
  | [] => True
  | (_, j) :: fields => j.Fits P ∧ FitFields P fields

end

end Json

variable {P : Int → Prop}

/-- The figures of a node: where its token stands, and the value of an integer literal. -/
structure Node.Figures (P : Int → Prop) (n : Node) : Prop where
  line : ∀ t ∈ n.token?, P t.position.line
  column : ∀ t ∈ n.token?, P t.position.column
  value : ∀ t v, n = .expression (.integer t v) → P v

/-- The record of a node fits when its place and its slots do. -/
theorem Token.fits_record {t : Token} {kind : String} {slots : List (String × Json)}
    (hline : P t.position.line) (hcolumn : P t.position.column)
    (hnames : ("kind" :: "line" :: "col" :: slots.map Prod.fst).Nodup)
    (hslots : Json.FitFields P slots) : (t.record kind slots).Fits P := by
  simp only [record, Json.Fits, Json.FitFields, List.map_cons]
  exact ⟨hnames, trivial, hline, hcolumn, hslots⟩

theorem Identifier.fits_toJson {i : Identifier} (h : i.node.Figures P) : i.toJson.Fits P :=
  Token.fits_record (h.line _ rfl) (h.column _ rfl) (by simp) ⟨trivial, trivial⟩

theorem Identifier.fits_listToJson {is : List Identifier}
    (h : ∀ n ∈ is.map node, n.Figures P) : Json.FitMembers P (is.map toJson) := by
  induction is with
  | nil => trivial
  | cons i is ih =>
    obtain ⟨hi, his⟩ := List.forall_mem_cons.mp h
    exact ⟨Identifier.fits_toJson hi, ih his⟩

theorem Identifier.fits_optionToJson {v : Option Identifier}
    (h : ∀ n ∈ v.toList.map node, n.Figures P) : (optionToJson v).Fits P := by
  cases v with
  | none => trivial
  | some i => exact Identifier.fits_toJson (h _ List.mem_cons_self)

mutual

/-- The data of an expression fits when the figures of its nodes do. -/
theorem Expr.fits_toJson : (e : Expr) → (∀ n ∈ e.nodes, n.Figures P) → e.toJson.Fits P
  | .identifier i, h => Identifier.fits_toJson (h _ List.mem_cons_self)
  | .integer t v, h => by
    have hn := h _ List.mem_cons_self
    exact Token.fits_record (hn.line _ rfl) (hn.column _ rfl) (by simp)
      ⟨hn.value t v rfl, trivial⟩
  | .boolean t v, h => by
    have hn := h _ List.mem_cons_self
    exact Token.fits_record (hn.line _ rfl) (hn.column _ rfl) (by simp) ⟨trivial, trivial⟩
  | .unary t o r, h => by
    obtain ⟨hn, hr⟩ := List.forall_mem_cons.mp h
    exact Token.fits_record (hn.line _ rfl) (hn.column _ rfl) (by simp)
      ⟨trivial, Expr.fits_optionToJson r hr, trivial⟩
  | .binary t l o r, h => by
    obtain ⟨hl, htail⟩ := List.forall_mem_append.mp h
    obtain ⟨hn, hr⟩ := List.forall_mem_cons.mp htail
    exact Token.fits_record (hn.line _ rfl) (hn.column _ rfl) (by simp)
      ⟨Expr.fits_toJson l hl, trivial, Expr.fits_optionToJson r hr, trivial⟩
  | .conditional t c b a, h => by
    obtain ⟨hn, htail⟩ := List.forall_mem_cons.mp h
    obtain ⟨hc, htail⟩ := List.forall_mem_append.mp htail
    obtain ⟨hb, ha⟩ := List.forall_mem_append.mp htail
    exact Token.fits_record (hn.line _ rfl) (hn.column _ rfl) (by simp)
      ⟨Expr.fits_optionToJson c hc, Block.fits_toJson b hb, Block.fits_optionToJson a ha, trivial⟩
  | .function t ps b, h => by
    obtain ⟨hn, htail⟩ := List.forall_mem_cons.mp h
    obtain ⟨hps, hb⟩ := List.forall_mem_append.mp htail
    exact Token.fits_record (hn.line _ rfl) (hn.column _ rfl) (by simp)
      ⟨Identifier.fits_listToJson hps, Block.fits_toJson b hb, trivial⟩

theorem Expr.fits_optionToJson : (v : Option Expr) → (∀ n ∈ Expr.optionNodes v, n.Figures P) →
    (Expr.optionToJson v).Fits P
  | none, _ => trivial
  | some e, h => Expr.fits_toJson e h

theorem Stmt.fits_toJson : (s : Stmt) → (∀ n ∈ s.nodes, n.Figures P) → s.toJson.Fits P
  | .letting t m v, h => by
    obtain ⟨hn, htail⟩ := List.forall_mem_cons.mp h
    obtain ⟨hm, hv⟩ := List.forall_mem_append.mp htail
    exact Token.fits_record (hn.line _ rfl) (hn.column _ rfl) (by simp)
      ⟨Identifier.fits_optionToJson hm, Expr.fits_optionToJson v hv, trivial⟩
  | .returning t v, h | .expression t v, h => by
    obtain ⟨hn, hv⟩ := List.forall_mem_cons.mp h
    exact Token.fits_record (hn.line _ rfl) (hn.column _ rfl) (by simp)
      ⟨Expr.fits_optionToJson v hv, trivial⟩
  | .block b, h => Block.fits_toJson b h

theorem Stmt.fits_listToJson : (ss : List Stmt) → (∀ n ∈ Stmt.listNodes ss, n.Figures P) →
    Json.FitMembers P (Stmt.listToJson ss)
  | [], _ => trivial
  | s :: ss, h => by
    obtain ⟨hs, hss⟩ := List.forall_mem_append.mp h
    exact ⟨Stmt.fits_toJson s hs, Stmt.fits_listToJson ss hss⟩

theorem Block.fits_toJson : (b : Block) → (∀ n ∈ b.nodes, n.Figures P) → b.toJson.Fits P
  | .mk t ss, h => by
    obtain ⟨hn, hss⟩ := List.forall_mem_cons.mp h
    exact Token.fits_record (hn.line _ rfl) (hn.column _ rfl) (by simp)
      ⟨Stmt.fits_listToJson ss hss, trivial⟩

theorem Block.fits_optionToJson : (b : Option Block) → (∀ n ∈ Block.optionNodes b, n.Figures P) →
    (Block.optionToJson b).Fits P
  | none, _ => trivial
  | some b, h => Block.fits_toJson b h

end

/-- **The data of a program fits when the figures of its nodes do.** -/
theorem Program.fits_toJson {p : Program} (h : ∀ n ∈ p.nodes, n.Figures P) : p.toJson.Fits P :=
  ⟨by simp, trivial, Stmt.fits_listToJson p.statements h, trivial⟩

end MonkeyFrontend
