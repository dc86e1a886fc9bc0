import MonkeyFrontend.Proofs.Tree.Nodes
import MonkeyFrontend.Proofs.Tree.Same
import MonkeyFrontend.Tree.Data
import MonkeyFrontend.Tree.Inspect

/-! # Trees at other places

What a tree shows when its tokens are moved, kinds and texts kept: its nodes stay in order, each
with its token moved; its constructor form is the same, and so is its data but for the lines and
columns.
-/
namespace MonkeyFrontend

/-- A program with other tokens. -/
def Program.mapToken (g : Token → Token) (p : Program) : Program :=
  ⟨Stmt.listMapToken g p.statements⟩

/-- Any tree with other tokens. -/
def Node.mapToken (g : Token → Token) : Node → Node
  | .program p => .program (p.mapToken g)
  | .statement s => .statement (s.mapToken g)
  | .expression e => .expression (e.mapToken g)

/-! ## Replacing tokens twice -/

variable {f g : Token → Token}

theorem Identifier.map_mapToken (ps : List Identifier) :
    (ps.map (mapToken g)).map (mapToken f) = ps.map (mapToken (f ∘ g)) := List.map_map

mutual

/-- Replacing tokens twice is replacing them once. -/
theorem Expr.mapToken_mapToken : (e : Expr) → (e.mapToken g).mapToken f = e.mapToken (f ∘ g)
  | .identifier i => rfl
  | .integer t v => rfl
  | .boolean t v => rfl
  | .unary t o r => by
    rw [Expr.mapToken, Expr.mapToken, Expr.optionMapToken_optionMapToken, Expr.mapToken]
    rfl
  | .binary t l o r => by
    rw [Expr.mapToken, Expr.mapToken, Expr.mapToken_mapToken, Expr.optionMapToken_optionMapToken,
      Expr.mapToken]
    rfl
  | .conditional t c b a => by
    rw [Expr.mapToken, Expr.mapToken, Expr.optionMapToken_optionMapToken,
      Block.mapToken_mapToken, Block.optionMapToken_optionMapToken, Expr.mapToken]
    rfl
  | .function t ps b => by
    rw [Expr.mapToken, Expr.mapToken, Identifier.map_mapToken, Block.mapToken_mapToken,
      Expr.mapToken]
    rfl

theorem Expr.optionMapToken_optionMapToken : (v : Option Expr) →
    Expr.optionMapToken f (Expr.optionMapToken g v) = Expr.optionMapToken (f ∘ g) v
  | none => rfl
  | some e => congrArg some e.mapToken_mapToken

theorem Stmt.mapToken_mapToken : (s : Stmt) → (s.mapToken g).mapToken f = s.mapToken (f ∘ g)
  | .letting t n v => by
    have hn : (n.map (Identifier.mapToken g)).map (Identifier.mapToken f) =
        n.map (Identifier.mapToken (f ∘ g)) := Option.map_map _ _ n
    rw [Stmt.mapToken, Stmt.mapToken, hn, Expr.optionMapToken_optionMapToken, Stmt.mapToken]
    rfl
  | .returning t v => by
    rw [Stmt.mapToken, Stmt.mapToken, Expr.optionMapToken_optionMapToken, Stmt.mapToken]
    rfl
  | .expression t v => by
    rw [Stmt.mapToken, Stmt.mapToken, Expr.optionMapToken_optionMapToken, Stmt.mapToken]
    rfl
  | .block b => congrArg Stmt.block b.mapToken_mapToken

theorem Stmt.listMapToken_listMapToken : (ss : List Stmt) →
    Stmt.listMapToken f (Stmt.listMapToken g ss) = Stmt.listMapToken (f ∘ g) ss
  | [] => rfl
  | s :: ss => by
    rw [Stmt.listMapToken, Stmt.listMapToken, Stmt.mapToken_mapToken,
      Stmt.listMapToken_listMapToken, Stmt.listMapToken]

theorem Block.mapToken_mapToken : (b : Block) → (b.mapToken g).mapToken f = b.mapToken (f ∘ g)
  | .mk t ss => congrArg (Block.mk (f (g t))) (Stmt.listMapToken_listMapToken ss)

theorem Block.optionMapToken_optionMapToken : (b : Option Block) →
    Block.optionMapToken f (Block.optionMapToken g b) = Block.optionMapToken (f ∘ g) b
  | none => rfl
  | some b => congrArg some b.mapToken_mapToken

end

/-- A program is the same as the one with its tokens moved. -/
theorem Program.same_mapToken (hkind : ∀ t, (g t).kind = t.kind)
    (hliteral : ∀ t, (g t).literal = t.literal) (p : Program) : p.same (p.mapToken g) = true := by
  have hbare : Token.bare ∘ g = Token.bare := by
    funext t
    rw [Function.comp_apply, Token.bare, hkind, hliteral]
    rfl
  refine (Stmt.sameList_iff _ _).mpr ?_
  rw [mapToken, Stmt.listMapToken_listMapToken, hbare]

theorem Program.render_mapToken (hliteral : ∀ t, (g t).literal = t.literal) (p : Program) :
    (p.mapToken g).render = p.render :=
  Stmt.renderList_mapToken hliteral p.statements

/-! ## Nodes -/

theorem Identifier.nodes_mapToken (ps : List Identifier) :
    (ps.map (mapToken g)).map node = (ps.map node).map (Node.mapToken g) := by
  rw [List.map_map, List.map_map]
  rfl

mutual

/-- The nodes of a tree with other tokens are the nodes with other tokens. -/
theorem Expr.nodes_mapToken : (e : Expr) →
    (e.mapToken g).nodes = e.nodes.map (Node.mapToken g)
  | .identifier i => rfl
  | .integer t v => rfl
  | .boolean t v => rfl
  | .unary t o r => by
    rw [Expr.mapToken, Expr.nodes, Expr.optionNodes_mapToken, Expr.nodes, List.map_cons]
    rfl
  | .binary t l o r => by
    rw [Expr.mapToken, Expr.nodes, Expr.nodes_mapToken, Expr.optionNodes_mapToken, Expr.nodes,
      List.map_append, List.map_cons]
    rfl
  | .conditional t c b a => by
    rw [Expr.mapToken, Expr.nodes, Expr.optionNodes_mapToken, Block.nodes_mapToken,
      Block.optionNodes_mapToken, Expr.nodes, List.map_cons, List.map_append, List.map_append]
    rfl
  | .function t ps b => by
    rw [Expr.mapToken, Expr.nodes, Identifier.nodes_mapToken, Block.nodes_mapToken, Expr.nodes,
      List.map_cons, List.map_append]
    rfl

theorem Expr.optionNodes_mapToken : (v : Option Expr) →
    Expr.optionNodes (Expr.optionMapToken g v) = (Expr.optionNodes v).map (Node.mapToken g)
  | none => rfl
  | some e => e.nodes_mapToken

theorem Stmt.nodes_mapToken : (s : Stmt) →
    (s.mapToken g).nodes = s.nodes.map (Node.mapToken g)
  | .letting t n v => by
    rw [Stmt.mapToken, Stmt.nodes, Expr.optionNodes_mapToken, Stmt.nodes, List.map_cons,
      List.map_append]
    cases n <;> rfl
  | .returning t v => by
    rw [Stmt.mapToken, Stmt.nodes, Expr.optionNodes_mapToken, Stmt.nodes, List.map_cons]
    rfl
  | .expression t v => by
    rw [Stmt.mapToken, Stmt.nodes, Expr.optionNodes_mapToken, Stmt.nodes, List.map_cons]
    rfl
  | .block b => b.nodes_mapToken

theorem Stmt.listNodes_mapToken : (ss : List Stmt) →
    Stmt.listNodes (Stmt.listMapToken g ss) = (Stmt.listNodes ss).map (Node.mapToken g)
  | [] => rfl
  | s :: ss => by
    rw [Stmt.listMapToken, Stmt.listNodes, Stmt.nodes_mapToken, Stmt.listNodes_mapToken,
      Stmt.listNodes, List.map_append]

theorem Block.nodes_mapToken : (b : Block) →
    (b.mapToken g).nodes = b.nodes.map (Node.mapToken g)
  | .mk t ss => by
    rw [Block.mapToken, Block.nodes, Stmt.listNodes_mapToken, Block.nodes, List.map_cons]
    rfl

theorem Block.optionNodes_mapToken : (b : Option Block) →
    Block.optionNodes (Block.optionMapToken g b) = (Block.optionNodes b).map (Node.mapToken g)
  | none => rfl
  | some b => b.nodes_mapToken

end

/-- The token of a node with other tokens. -/
theorem Node.token?_mapToken (n : Node) : (n.mapToken g).token? = n.token?.map g := by
  rcases n with p | s | e
  · rfl
  · rcases s with _ | _ | _ | b
    case block => cases b; rfl
    all_goals rfl
  · cases e <;> rfl

/-! ## The constructor form -/

section Inspect

variable (hg : ∀ t, (g t).inspect = t.inspect)
include hg

theorem Identifier.inspect_mapToken (i : Identifier) : (i.mapToken g).inspect = i.inspect := by
  unfold inspect mapToken
  rw [hg]

theorem Identifier.inspectOption_mapToken (n : Option Identifier) :
    inspectOption (n.map (mapToken g)) = inspectOption n := by
  cases n with
  | none => rfl
  | some i => exact i.inspect_mapToken hg

theorem Identifier.inspectList_mapToken (ps : List Identifier) :
    inspectList (ps.map (mapToken g)) = inspectList ps := by
  induction ps with
  | nil => rfl
  | cons p ps ih =>
    have hp := p.inspect_mapToken hg
    cases ps with
    | nil => exact hp
    | cons q qs => exact congrArg₂ (· ++ ", " ++ ·) hp ih

end Inspect

mutual

/-- The constructor form of a tree only takes the kinds and texts of its tokens. -/
theorem Expr.inspect_mapToken (hg : ∀ t, (g t).inspect = t.inspect) :
    (e : Expr) → (e.mapToken g).inspect = e.inspect
  | .identifier i => i.inspect_mapToken hg
  | .integer t v | .boolean t v => by
    rw [Expr.mapToken]
    unfold Expr.inspect
    rw [hg]
  | .unary t o r => by
    rw [Expr.mapToken]
    unfold Expr.inspect
    rw [hg, Expr.inspectOption_mapToken hg]
  | .binary t l o r => by
    rw [Expr.mapToken]
    unfold Expr.inspect
    rw [hg, Expr.inspect_mapToken hg, Expr.inspectOption_mapToken hg]
  | .conditional t c b a => by
    rw [Expr.mapToken]
    unfold Expr.inspect
    rw [hg, Expr.inspectOption_mapToken hg, Block.inspect_mapToken hg,
      Block.inspectOption_mapToken hg]
  | .function t ps b => by
    rw [Expr.mapToken]
    unfold Expr.inspect
    rw [hg, Identifier.inspectList_mapToken hg, Block.inspect_mapToken hg]

theorem Expr.inspectOption_mapToken (hg : ∀ t, (g t).inspect = t.inspect) :
    (v : Option Expr) → Expr.inspectOption (Expr.optionMapToken g v) = Expr.inspectOption v
  | none => rfl
  | some e => e.inspect_mapToken hg

theorem Stmt.inspect_mapToken (hg : ∀ t, (g t).inspect = t.inspect) :
    (s : Stmt) → (s.mapToken g).inspect = s.inspect
  | .letting t n v => by
    rw [Stmt.mapToken]
    unfold Stmt.inspect
    rw [hg, Identifier.inspectOption_mapToken hg, Expr.inspectOption_mapToken hg]
  | .returning t v | .expression t v => by
    rw [Stmt.mapToken]
    unfold Stmt.inspect
    rw [hg, Expr.inspectOption_mapToken hg]
  | .block b => b.inspect_mapToken hg

theorem Stmt.inspectMore_mapToken (hg : ∀ t, (g t).inspect = t.inspect) :
    (ss : List Stmt) → Stmt.inspectMore (Stmt.listMapToken g ss) = Stmt.inspectMore ss
  | [] => rfl
  | s :: ss =>
    congrArg₂ (", " ++ · ++ ·) (s.inspect_mapToken hg) (Stmt.inspectMore_mapToken hg ss)

theorem Stmt.inspectList_mapToken (hg : ∀ t, (g t).inspect = t.inspect) :
    (ss : List Stmt) → Stmt.inspectList (Stmt.listMapToken g ss) = Stmt.inspectList ss
  | [] => rfl
  | s :: ss => congrArg₂ (· ++ ·) (s.inspect_mapToken hg) (Stmt.inspectMore_mapToken hg ss)

theorem Block.inspect_mapToken (hg : ∀ t, (g t).inspect = t.inspect) :
    (b : Block) → (b.mapToken g).inspect = b.inspect
  | .mk t ss => by
    rw [Block.mapToken]
    unfold Block.inspect
    rw [hg, Stmt.inspectList_mapToken hg]

theorem Block.inspectOption_mapToken (hg : ∀ t, (g t).inspect = t.inspect) :
    (b : Option Block) → Block.inspectOption (Block.optionMapToken g b) = Block.inspectOption b
  | none => rfl
  | some b => b.inspect_mapToken hg

end

theorem Program.inspect_mapToken (hg : ∀ t, (g t).inspect = t.inspect) (p : Program) :
    (p.mapToken g).inspect = p.inspect :=
  congrArg ("Program(statements=[" ++ · ++ "])") (Stmt.inspectList_mapToken hg p.statements)

/-! ## Data -/

namespace Json

mutual

/-- Data without lines and columns. -/
def unplaced : Json → Json
  | list js => list (unplacedMembers js)
  | record fields => record (unplacedFields fields)
  | j => j

/-- The members of a list without lines and columns. -/
def unplacedMembers : List Json → List Json
  | [] => []
  | j :: js => j.unplaced :: unplacedMembers js

/-- The members of a record; those that are lines and columns are left empty. -/
def unplacedFields : List (String × Json) → List (String × Json)
  | [] => []
  | (key, j) :: fields =>
    (key, if key = "line" ∨ key = "col" then null else j.unplaced) :: unplacedFields fields

end

end Json

/-- The record of a node is the same at another place when its slots are. -/
theorem Token.unplaced_record (t u : Token) (kind : String) {xs ys : List (String × Json)}
    (h : Json.unplacedFields xs = Json.unplacedFields ys) :
    (t.record kind xs).unplaced = (u.record kind ys).unplaced := by
  simp only [record, Json.unplaced, Json.unplacedFields, h]
  simp

theorem Identifier.unplaced_mapToken (i : Identifier) :
    (i.mapToken g).toJson.unplaced = i.toJson.unplaced := Token.unplaced_record _ _ _ rfl

theorem Identifier.unplacedMembers_mapToken (ps : List Identifier) :
    Json.unplacedMembers ((ps.map (mapToken g)).map toJson) =
      Json.unplacedMembers (ps.map toJson) := by
  induction ps with
  | nil => rfl
  | cons p ps ih =>
    simp only [List.map_cons, Json.unplacedMembers, ih, p.unplaced_mapToken]

mutual

/-- The data of a tree only differs in lines and columns when its tokens are moved. -/
theorem Expr.unplaced_mapToken : (e : Expr) →
    (e.mapToken g).toJson.unplaced = e.toJson.unplaced
  | .identifier i => i.unplaced_mapToken
  | .integer t v => Token.unplaced_record _ _ _ rfl
  | .boolean t v => Token.unplaced_record _ _ _ rfl
  | .unary t o r => Token.unplaced_record _ _ _ (by
    simp only [Json.unplacedFields, Expr.unplacedOption_mapToken r])
  | .binary t l o r => Token.unplaced_record _ _ _ (by
    simp only [Json.unplacedFields, Expr.unplaced_mapToken l, Expr.unplacedOption_mapToken r])
  | .conditional t c b a => Token.unplaced_record _ _ _ (by
    simp only [Json.unplacedFields, Expr.unplacedOption_mapToken c, Block.unplaced_mapToken b,
      Block.unplacedOption_mapToken a])
  | .function t ps b => Token.unplaced_record _ _ _ (by
    simp only [Json.unplacedFields, Json.unplaced, Identifier.unplacedMembers_mapToken,
      Block.unplaced_mapToken b])

theorem Expr.unplacedOption_mapToken : (v : Option Expr) →
    (Expr.optionToJson (Expr.optionMapToken g v)).unplaced = (Expr.optionToJson v).unplaced
  | none => rfl
  | some e => e.unplaced_mapToken

theorem Stmt.unplaced_mapToken : (s : Stmt) →
    (s.mapToken g).toJson.unplaced = s.toJson.unplaced
  | .letting t n v => Token.unplaced_record _ _ _ (by
    cases n <;> simp only [Json.unplacedFields, Expr.unplacedOption_mapToken v, Option.map,
      Identifier.optionToJson, Identifier.unplaced_mapToken])
  | .returning t v => Token.unplaced_record _ _ _ (by
    simp only [Json.unplacedFields, Expr.unplacedOption_mapToken v])
  | .expression t v => Token.unplaced_record _ _ _ (by
    simp only [Json.unplacedFields, Expr.unplacedOption_mapToken v])
  | .block b => b.unplaced_mapToken

theorem Stmt.unplacedMembers_mapToken : (ss : List Stmt) →
    Json.unplacedMembers (Stmt.listToJson (Stmt.listMapToken g ss)) =
      Json.unplacedMembers (Stmt.listToJson ss)
  | [] => rfl
  | s :: ss => by
    simp only [Stmt.listMapToken, Stmt.listToJson, Json.unplacedMembers, Stmt.unplaced_mapToken s,
      Stmt.unplacedMembers_mapToken ss]

theorem Block.unplaced_mapToken : (b : Block) →
    (b.mapToken g).toJson.unplaced = b.toJson.unplaced
  | .mk t ss => Token.unplaced_record _ _ _ (by
    simp only [Json.unplacedFields, Json.unplaced, Stmt.unplacedMembers_mapToken ss])

theorem Block.unplacedOption_mapToken : (b : Option Block) →
    (Block.optionToJson (Block.optionMapToken g b)).unplaced = (Block.optionToJson b).unplaced
  | none => rfl
  | some b => b.unplaced_mapToken

end

theorem Program.unplaced_mapToken (p : Program) :
    (p.mapToken g).toJson.unplaced = p.toJson.unplaced := by
  simp only [toJson, mapToken, Json.unplaced, Json.unplacedFields, Stmt.unplacedMembers_mapToken]

end MonkeyFrontend
