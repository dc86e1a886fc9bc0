import MonkeyFrontend.Proofs.Source.Cutting
import MonkeyFrontend.Proofs.Tree.Consistent
import MonkeyFrontend.Tree.Data

/-! # What the data of a tree forgets

The data of a tree shows no texts of tokens, so trees made by hand may have the same data and no
token in common.  In a tree whose nodes agree with their tokens hardly anything is lost: the leading
zeros of numbers, and which token an expression as a statement borrows, its place apart.  A
canonical tree has neither, and two such trees have the same data exactly when their canonical trees
are equal (`Program.toJson_eq_iff`).

Canonical trees keep their data, which is one half.  For the other, two trees with the same data
have the same node at their root, the place of its token and the data of its parts in common
(`Token.record_inj`); what its fields and its kind say then gives the text of the token.
-/
namespace MonkeyFrontend

/-! ## Canonical trees -/

/-- The token of a number without its leading zeros. -/
def Token.unpadded (t : Token) : Token := ⟨t.kind, MonkeyFrontend.unpadded t.literal, t.position⟩

/-- The place of a token. -/
def Token.blank (t : Token) : Token := .eof t.position

mutual

/-- An expression without what its data forgets. -/
def Expr.canonical : Expr → Expr
  | .identifier i => .identifier i
  | .integer t v => .integer t.unpadded v
  | .boolean t v => .boolean t v
  | .unary t o r => .unary t o (Expr.optionCanonical r)
  | .binary t l o r => .binary t l.canonical o (Expr.optionCanonical r)
  | .conditional t c b a =>
    .conditional t (Expr.optionCanonical c) b.canonical (Block.optionCanonical a)
  | .function t ps b => .function t ps b.canonical

/-- An optional expression without what its data forgets. -/
def Expr.optionCanonical : Option Expr → Option Expr
  | none => none
  | some e => some e.canonical

/-- A statement without what its data forgets. -/
def Stmt.canonical : Stmt → Stmt
  | .letting t n v => .letting t n (Expr.optionCanonical v)
  | .returning t v => .returning t (Expr.optionCanonical v)
  | .expression t v => .expression t.blank (Expr.optionCanonical v)
  | .block b => .block b.canonical

/-- Statements without what their data forgets. -/
def Stmt.listCanonical : List Stmt → List Stmt
  | [] => []
  | s :: ss => s.canonical :: Stmt.listCanonical ss

/-- A block without what its data forgets. -/
def Block.canonical : Block → Block
  | .mk t ss => .mk t (Stmt.listCanonical ss)

/-- An optional block without what its data forgets. -/
def Block.optionCanonical : Option Block → Option Block
  | none => none
  | some b => some b.canonical

end

/-- A program without what its data forgets. -/
def Program.canonical (p : Program) : Program := ⟨Stmt.listCanonical p.statements⟩

/-! ## Canonical trees keep their data -/

mutual

/-- The data of a canonical tree is that of the tree. -/
theorem Expr.toJson_canonical : (e : Expr) → e.canonical.toJson = e.toJson
  | .identifier i => rfl
  | .integer t v => rfl
  | .boolean t v => rfl
  | .unary t o r => by
    rw [Expr.canonical, Expr.toJson, Expr.optionToJson_canonical, Expr.toJson]
  | .binary t l o r => by
    rw [Expr.canonical, Expr.toJson, Expr.toJson_canonical, Expr.optionToJson_canonical,
      Expr.toJson]
  | .conditional t c b a => by
    rw [Expr.canonical, Expr.toJson, Expr.optionToJson_canonical, Block.toJson_canonical,
      Block.optionToJson_canonical, Expr.toJson]
  | .function t ps b => by rw [Expr.canonical, Expr.toJson, Block.toJson_canonical, Expr.toJson]

theorem Expr.optionToJson_canonical : (v : Option Expr) →
    Expr.optionToJson (Expr.optionCanonical v) = Expr.optionToJson v
  | none => rfl
  | some e => e.toJson_canonical

theorem Stmt.toJson_canonical : (s : Stmt) → s.canonical.toJson = s.toJson
  | .letting t n v => by
    rw [Stmt.canonical, Stmt.toJson, Expr.optionToJson_canonical, Stmt.toJson]
  | .returning t v => by
    rw [Stmt.canonical, Stmt.toJson, Expr.optionToJson_canonical, Stmt.toJson]
  | .expression t v => by
    rw [Stmt.canonical, Stmt.toJson, Expr.optionToJson_canonical, Stmt.toJson]
    rfl
  | .block b => b.toJson_canonical

theorem Stmt.listToJson_canonical : (ss : List Stmt) →
    Stmt.listToJson (Stmt.listCanonical ss) = Stmt.listToJson ss
  | [] => rfl
  | s :: ss => by
    rw [Stmt.listCanonical, Stmt.listToJson, Stmt.toJson_canonical, Stmt.listToJson_canonical,
      Stmt.listToJson]

theorem Block.toJson_canonical : (b : Block) → b.canonical.toJson = b.toJson
  | .mk t ss => by rw [Block.canonical, Block.toJson, Stmt.listToJson_canonical, Block.toJson]

theorem Block.optionToJson_canonical : (b : Option Block) →
    Block.optionToJson (Block.optionCanonical b) = Block.optionToJson b
  | none => rfl
  | some b => b.toJson_canonical

end

/-! ## Nodes with the same data -/

/-- **What the record of a node says**: its sort, its place and its slots. -/
theorem Token.record_inj {t u : Token} {k l : String} {xs ys : List (String × Json)}
    (h : t.record k xs = u.record l ys) : k = l ∧ t.position = u.position ∧ xs = ys := by
  simp only [record, Json.record.injEq, List.cons.injEq, Prod.mk.injEq, true_and, Json.text.injEq,
    Json.int.injEq] at h
  obtain ⟨hkind, hline, hcolumn, hslots⟩ := h
  refine ⟨hkind, ?_, hslots⟩
  calc t.position = ⟨t.position.line, t.position.column⟩ := rfl
    _ = u.position := by rw [hline, hcolumn]

/-- Nodes of different sorts have different data. -/
theorem Token.record_ne {t u : Token} {k l : String} {xs ys : List (String × Json)} (hne : k ≠ l) :
    t.record k xs ≠ u.record l ys := fun h => hne (record_inj h).1

/-- Whether the tokens of a node are spelled as tokens of a text are. -/
def Node.Spelled (n : Node) : Prop := ∀ t ∈ n.token?, Spells t.kind t.literal

/-- **Some nodes agree with tokens of a text.** -/
def Sound (ns : List Node) : Prop := ∀ n ∈ ns, n.Consistent ∧ n.Spelled

/-- A keyword, an operator or a delimiter at some place. -/
theorem Token.eq_of_kind {t u : Token} {k : Kind} (ht : Spells t.kind t.literal)
    (hu : Spells u.kind u.literal) (htk : t.kind = k) (huk : u.kind = k)
    (hk : k ∉ [.illegal, .ident, .int]) (hplace : t.position = u.position) : t = u := by
  obtain ⟨k₁, v, p⟩ := t
  obtain ⟨k₂, w, q⟩ := u
  obtain rfl : k₁ = k := htk
  obtain rfl : k₂ = k₁ := huk
  obtain rfl : p = q := hplace
  obtain rfl : v = w := ht.text_unique hu hk
  rfl

/-- A token of a text by its text and its place. -/
theorem Token.eq_of_literal {t u : Token} (ht : Spells t.kind t.literal)
    (hu : Spells u.kind u.literal) (htext : t.literal = u.literal)
    (hplace : t.position = u.position) : t = u := by
  obtain ⟨k, v, p⟩ := t
  obtain ⟨l, w, q⟩ := u
  obtain rfl : v = w := htext
  obtain rfl : p = q := hplace
  obtain rfl : k = l := ht.kind_unique hu ht.ne_empty
  rfl

/-- A number by its value and its place. -/
theorem Token.unpadded_eq {t u : Token} (ht : Spells .int t.literal) (hu : Spells .int u.literal)
    (hkind : t.kind = u.kind) (hvalue : decimalValue t.literal = decimalValue u.literal)
    (hplace : t.position = u.position) : t.unpadded = u.unpadded := by
  have htext := (unpadded_eq_iff ht.digits.2 hu.digits.2).mpr hvalue
  rw [unpadded, unpadded, hkind, htext, hplace]

theorem Sound.head {n : Node} {ns : List Node} {t : Token} (h : Sound (n :: ns))
    (ht : t ∈ n.token?) : n.Consistent ∧ Spells t.kind t.literal :=
  ⟨(h n List.mem_cons_self).1, (h n List.mem_cons_self).2 t ht⟩

theorem Sound.single {n : Node} {ns : List Node} (h : Sound (n :: ns)) : Sound [n] :=
  List.forall_mem_singleton.mpr (h n List.mem_cons_self)

theorem Sound.tail {n : Node} {ns : List Node} (h : Sound (n :: ns)) : Sound ns :=
  fun m hm => h m (List.mem_cons_of_mem n hm)

theorem Sound.left {ms ns : List Node} (h : Sound (ms ++ ns)) : Sound ms :=
  fun m hm => h m (List.mem_append_left ns hm)

theorem Sound.right {ms ns : List Node} (h : Sound (ms ++ ns)) : Sound ns :=
  fun m hm => h m (List.mem_append_right ms hm)

namespace Identifier

/-- A name by its data. -/
theorem eq_of_toJson {i j : Identifier} (hi : Sound [i.node]) (hj : Sound [j.node])
    (h : i.toJson = j.toJson) : i = j := by
  obtain ⟨⟨-, hiname⟩, hispell⟩ := hi.head rfl
  obtain ⟨⟨-, hjname⟩, hjspell⟩ := hj.head rfl
  obtain ⟨-, hplace, hslots⟩ := Token.record_inj h
  have hname : i.name = j.name := by simpa using hslots
  have htoken : i.token = j.token := by
    have htext : i.token.literal = j.token.literal := by rw [← hiname, ← hjname, hname]
    exact Token.eq_of_literal hispell hjspell htext hplace
  obtain ⟨t, x⟩ := i
  obtain rfl : t = j.token := htoken
  rw [show x = j.name from hname]

theorem eq_of_optionToJson {m n : Option Identifier} (hm : Sound (m.toList.map node))
    (hn : Sound (n.toList.map node)) (h : optionToJson m = optionToJson n) : m = n := by
  cases m with
  | none =>
    cases n with
    | none => rfl
    | some j => exact absurd h nofun
  | some i =>
    cases n with
    | none => exact absurd h nofun
    | some j => rw [eq_of_toJson hm hn h]

theorem eq_of_map_toJson {ps qs : List Identifier} (hps : Sound (ps.map node))
    (hqs : Sound (qs.map node)) (h : ps.map toJson = qs.map toJson) : ps = qs := by
  induction ps generalizing qs with
  | nil => exact (List.map_eq_nil_iff.mp h.symm).symm
  | cons p ps ih =>
    cases qs with
    | nil => exact absurd h nofun
    | cons q qs =>
      obtain ⟨hhead, htail⟩ := List.cons.inj h
      rw [eq_of_toJson hps.single hqs.single hhead, ih hps.tail hqs.tail htail]

end Identifier

mutual

/-- Expressions with the same data have the same canonical tree. -/
theorem Expr.canonical_eq : (e f : Expr) → Sound e.nodes → Sound f.nodes → e.toJson = f.toJson →
    e.canonical = f.canonical
  | .identifier i, f, he, hf, h => by
    cases f with
    | identifier j =>
      rw [Identifier.eq_of_toJson he hf h]
    | _ => exact absurd h (Token.record_ne (by decide))
  | .integer t v, f, he, hf, h => by
    cases f with
    | integer u w =>
      obtain ⟨⟨htk, -, hv⟩, ht⟩ := he.head rfl
      obtain ⟨⟨huk, -, hw⟩, hu⟩ := hf.head rfl
      obtain ⟨-, hplace, hslots⟩ := Token.record_inj h
      obtain rfl : v = w := by simpa using hslots
      have hvalue := Int.ofNat.inj (hv.symm.trans hw)
      rw [Expr.canonical, Expr.canonical, Token.unpadded_eq (htk ▸ ht) (huk ▸ hu)
        (htk.trans huk.symm) hvalue hplace]
    | _ => exact absurd h (Token.record_ne (by decide))
  | .boolean t v, f, he, hf, h => by
    cases f with
    | boolean u w =>
      obtain ⟨⟨hk, hv⟩, ht⟩ := he.head rfl
      obtain ⟨⟨hk', hw⟩, hu⟩ := hf.head rfl
      obtain ⟨-, hplace, hslots⟩ := Token.record_inj h
      obtain rfl : v = w := by simpa using hslots
      have hkind : t.kind = u.kind := by
        cases v with
        | true => exact (hv.mp rfl).trans (hw.mp rfl).symm
        | false =>
          have hfalse : t.kind = .falseWord := hk.resolve_left fun h => nomatch hv.mpr h
          exact hfalse.trans (hk'.resolve_left fun h => nomatch hw.mpr h).symm
      have hword : u.kind ∉ [.illegal, .ident, .int] := by
        rcases hk' with hk' | hk' <;> rw [hk'] <;> decide
      obtain rfl : t = u := Token.eq_of_kind ht hu hkind rfl hword hplace
      rfl
    | _ => exact absurd h (Token.record_ne (by decide))
  | .unary t o r, f, he, hf, h => by
    cases f with
    | unary u o' r' =>
      obtain ⟨⟨-, ho⟩, ht⟩ := he.head rfl
      obtain ⟨⟨-, ho'⟩, hu⟩ := hf.head rfl
      obtain ⟨-, hplace, hslots⟩ := Token.record_inj h
      obtain ⟨rfl, hright⟩ : o = o' ∧ Expr.optionToJson r = Expr.optionToJson r' := by
        simpa using hslots
      obtain rfl : t = u := Token.eq_of_literal ht hu (ho.symm.trans ho') hplace
      rw [Expr.canonical, Expr.canonical, Expr.optionCanonical_eq r r' he.tail hf.tail hright]
    | _ => exact absurd h (Token.record_ne (by decide))
  | .binary t l o r, f, he, hf, h => by
    cases f with
    | binary u l' o' r' =>
      obtain ⟨⟨-, ho⟩, ht⟩ := he.right.head rfl
      obtain ⟨⟨-, ho'⟩, hu⟩ := hf.right.head rfl
      obtain ⟨-, hplace, hslots⟩ := Token.record_inj h
      obtain ⟨hleft, rfl, hright⟩ :
          l.toJson = l'.toJson ∧ o = o' ∧ Expr.optionToJson r = Expr.optionToJson r' := by
        simpa using hslots
      obtain rfl : t = u := Token.eq_of_literal ht hu (ho.symm.trans ho') hplace
      rw [Expr.canonical, Expr.canonical, Expr.canonical_eq l l' he.left hf.left hleft,
        Expr.optionCanonical_eq r r' he.right.tail hf.right.tail hright]
    | _ => exact absurd h (Token.record_ne (by decide))
  | .conditional t c b a, f, he, hf, h => by
    cases f with
    | conditional u c' b' a' =>
      obtain ⟨hk, ht⟩ := he.head rfl
      obtain ⟨hk', hu⟩ := hf.head rfl
      obtain ⟨-, hplace, hslots⟩ := Token.record_inj h
      obtain ⟨hc, hb, ha⟩ : Expr.optionToJson c = Expr.optionToJson c' ∧ b.toJson = b'.toJson ∧
          Block.optionToJson a = Block.optionToJson a' := by simpa using hslots
      obtain rfl : t = u := Token.eq_of_kind ht hu hk hk' (by decide) hplace
      rw [Expr.canonical, Expr.canonical, Expr.optionCanonical_eq c c' he.tail.left hf.tail.left hc,
        Block.canonical_eq b b' he.tail.right.left hf.tail.right.left hb,
        Block.optionCanonical_eq a a' he.tail.right.right hf.tail.right.right ha]
    | _ => exact absurd h (Token.record_ne (by decide))
  | .function t ps b, f, he, hf, h => by
    cases f with
    | function u ps' b' =>
      obtain ⟨hk, ht⟩ := he.head rfl
      obtain ⟨hk', hu⟩ := hf.head rfl
      obtain ⟨-, hplace, hslots⟩ := Token.record_inj h
      obtain ⟨hps, hb⟩ : ps.map Identifier.toJson = ps'.map Identifier.toJson ∧
          b.toJson = b'.toJson := by simpa using hslots
      obtain rfl : t = u := Token.eq_of_kind ht hu hk hk' (by decide) hplace
      rw [Expr.canonical, Expr.canonical,
        Identifier.eq_of_map_toJson he.tail.left hf.tail.left hps,
        Block.canonical_eq b b' he.tail.right hf.tail.right hb]
    | _ => exact absurd h (Token.record_ne (by decide))

theorem Expr.optionCanonical_eq : (v w : Option Expr) → Sound (Expr.optionNodes v) →
    Sound (Expr.optionNodes w) → Expr.optionToJson v = Expr.optionToJson w →
      Expr.optionCanonical v = Expr.optionCanonical w
  | none, w, _, _, h => by
    cases w with
    | none => rfl
    | some f => cases f <;> exact absurd h nofun
  | some e, w, he, hf, h => by
    cases w with
    | none => cases e <;> exact absurd h nofun
    | some f => exact congrArg some (Expr.canonical_eq e f he hf h)

theorem Stmt.canonical_eq : (s x : Stmt) → Sound s.nodes → Sound x.nodes → s.toJson = x.toJson →
    s.canonical = x.canonical
  | .letting t n v, x, hs, hx, h => by
    cases x with
    | letting u n' v' =>
      obtain ⟨⟨hk, -⟩, ht⟩ := hs.head rfl
      obtain ⟨⟨hk', -⟩, hu⟩ := hx.head rfl
      obtain ⟨-, hplace, hslots⟩ := Token.record_inj h
      obtain ⟨hn, hv⟩ : Identifier.optionToJson n = Identifier.optionToJson n' ∧
          Expr.optionToJson v = Expr.optionToJson v' := by simpa using hslots
      obtain rfl : t = u := Token.eq_of_kind ht hu hk hk' (by decide) hplace
      rw [Stmt.canonical, Stmt.canonical,
        Identifier.eq_of_optionToJson hs.tail.left hx.tail.left hn,
        Expr.optionCanonical_eq v v' hs.tail.right hx.tail.right hv]
    | block b => cases b; exact absurd h (Token.record_ne (by decide))
    | _ => exact absurd h (Token.record_ne (by decide))
  | .returning t v, x, hs, hx, h => by
    cases x with
    | returning u v' =>
      obtain ⟨hk, ht⟩ := hs.head rfl
      obtain ⟨hk', hu⟩ := hx.head rfl
      obtain ⟨-, hplace, hslots⟩ := Token.record_inj h
      have hv : Expr.optionToJson v = Expr.optionToJson v' := by simpa using hslots
      obtain rfl : t = u := Token.eq_of_kind ht hu hk hk' (by decide) hplace
      rw [Stmt.canonical, Stmt.canonical, Expr.optionCanonical_eq v v' hs.tail hx.tail hv]
    | block b => cases b; exact absurd h (Token.record_ne (by decide))
    | _ => exact absurd h (Token.record_ne (by decide))
  | .expression t v, x, hs, hx, h => by
    cases x with
    | expression u v' =>
      obtain ⟨-, hplace, hslots⟩ := Token.record_inj h
      have hv : Expr.optionToJson v = Expr.optionToJson v' := by simpa using hslots
      rw [Stmt.canonical, Stmt.canonical, Token.blank, Token.blank, hplace,
        Expr.optionCanonical_eq v v' hs.tail hx.tail hv]
    | block b => cases b; exact absurd h (Token.record_ne (by decide))
    | _ => exact absurd h (Token.record_ne (by decide))
  | .block b, x, hs, hx, h => by
    cases x with
    | block b' => exact congrArg Stmt.block (Block.canonical_eq b b' hs hx h)
    | _ => cases b; exact absurd h (Token.record_ne (by decide))

theorem Stmt.listCanonical_eq : (ss xs : List Stmt) → Sound (Stmt.listNodes ss) →
    Sound (Stmt.listNodes xs) → Stmt.listToJson ss = Stmt.listToJson xs →
      Stmt.listCanonical ss = Stmt.listCanonical xs
  | [], xs, _, _, h => by
    cases xs with
    | nil => rfl
    | cons x xs => exact absurd h nofun
  | s :: ss, xs, hs, hx, h => by
    cases xs with
    | nil => exact absurd h nofun
    | cons x xs =>
      obtain ⟨hhead, htail⟩ := List.cons.inj h
      rw [Stmt.listCanonical, Stmt.listCanonical, Stmt.canonical_eq s x hs.left hx.left hhead,
        Stmt.listCanonical_eq ss xs hs.right hx.right htail]

theorem Block.canonical_eq : (b c : Block) → Sound b.nodes → Sound c.nodes →
    b.toJson = c.toJson → b.canonical = c.canonical
  | .mk t ss, c, hb, hc, h => by
    obtain ⟨u, xs⟩ := c
    obtain ⟨⟨hk, -⟩, ht⟩ := hb.head rfl
    obtain ⟨⟨hk', -⟩, hu⟩ := hc.head rfl
    obtain ⟨-, hplace, hslots⟩ := Token.record_inj h
    have hss : Stmt.listToJson ss = Stmt.listToJson xs := by simpa using hslots
    obtain rfl : t = u := Token.eq_of_kind ht hu hk hk' (by decide) hplace
    rw [Block.canonical, Block.canonical, Stmt.listCanonical_eq ss xs hb.tail hc.tail hss]

theorem Block.optionCanonical_eq : (a b : Option Block) → Sound (Block.optionNodes a) →
    Sound (Block.optionNodes b) → Block.optionToJson a = Block.optionToJson b →
      Block.optionCanonical a = Block.optionCanonical b
  | none, b, _, _, h => by
    cases b with
    | none => rfl
    | some b => cases b; exact absurd h nofun
  | some a, b, ha, hb, h => by
    cases b with
    | none => cases a; exact absurd h nofun
    | some b => exact congrArg some (Block.canonical_eq a b ha hb h)

end

/-- **Two trees that agree with their tokens have the same data exactly when their canonical trees
are equal.** -/
theorem Program.toJson_eq_iff {p q : Program} (hp : Sound p.nodes) (hq : Sound q.nodes) :
    p.toJson = q.toJson ↔ p.canonical = q.canonical := by
  constructor
  · intro h
    have hlists : Stmt.listToJson p.statements = Stmt.listToJson q.statements := by
      simpa [toJson] using h
    rw [canonical, canonical, Stmt.listCanonical_eq _ _ hp hq hlists]
  · intro h
    have hlists : Stmt.listCanonical p.statements = Stmt.listCanonical q.statements :=
      congrArg statements h
    rw [toJson, toJson, ← Stmt.listToJson_canonical, hlists, Stmt.listToJson_canonical]

end MonkeyFrontend
