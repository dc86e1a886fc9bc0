import MonkeyFrontend.Proofs.Tree.Nodes

/-! # Nodes and the tokens they are written with

`Written ts ns` says that the nodes `ns` are written with the tokens `ts`: each token that a node
owns is a token of its own, in the order of the nodes, and the statements of every list stand one
behind the other.  Nothing is said of tokens that no node owns, so what is written with some tokens
is written with more.
-/
namespace MonkeyFrontend

/-- The tokens of some nodes. -/
def tokensOf (ns : List Node) : List Token := ns.filterMap Node.token?

/-- The tokens that some nodes own. -/
def ownedBy (ns : List Node) : List Token := ns.filterMap Node.owned?

/-- **The statements of a list are in order** among some tokens: all tokens of a statement come
before all those of a later one, and an expression that stands as a statement begins no earlier
than its statement. -/
structure InOrder (ts : List Token) (ss : List Stmt) : Prop where
  apart : ss.Pairwise fun x y =>
    ∀ t ∈ tokensOf x.nodes, ∀ u ∈ tokensOf y.nodes, [t, u].Sublist ts
  leads : ∀ t v, .expression t v ∈ ss → ∀ u ∈ tokensOf (Expr.optionNodes v),
    u = t ∨ [t, u].Sublist ts

/-- **Some nodes are written with some tokens.** -/
structure Written (ts : List Token) (ns : List Node) : Prop where
  owned : (ownedBy ns).Sublist ts
  taken : tokensOf ns ⊆ ts
  ordered : ∀ ss ∈ ns.filterMap Node.list?, InOrder ts ss

variable {ts us : List Token} {ms ns : List Node} {ss : List Stmt} {t : Token}

theorem tokensOf_append (ms ns : List Node) : tokensOf (ms ++ ns) = tokensOf ms ++ tokensOf ns :=
  List.filterMap_append

/-- The tokens of a statement are among those of its list. -/
theorem tokensOf_subset_of_mem {x : Stmt} (h : x ∈ ss) :
    tokensOf x.nodes ⊆ tokensOf (Stmt.listNodes ss) := by
  induction ss with
  | nil => contradiction
  | cons y ss ih =>
    rw [Stmt.listNodes, tokensOf_append]
    rcases List.mem_cons.mp h with rfl | hmem
    · exact List.subset_append_left _ _
    · exact fun u hu => List.mem_append_right _ (ih hmem hu)

theorem InOrder.mono (h : InOrder ts ss) (hsub : ts.Sublist us) : InOrder us ss where
  apart := h.apart.imp fun hxy t ht u hu => (hxy t ht u hu).trans hsub
  leads t v hmem u hu := (h.leads t v hmem u hu).imp_right (·.trans hsub)

namespace Written

theorem nil (ts : List Token) : Written ts [] where
  owned := List.nil_sublist ts
  taken := List.nil_subset ts
  ordered := List.forall_mem_nil _

theorem mono (h : Written ts ns) (hsub : ts.Sublist us) : Written us ns where
  owned := h.owned.trans hsub
  taken := List.Subset.trans h.taken hsub.subset
  ordered ss hss := (h.ordered ss hss).mono hsub

/-- Nodes one behind the other are written with tokens one behind the other. -/
theorem append (h : Written ts ms) (h' : Written us ns) : Written (ts ++ us) (ms ++ ns) where
  owned := by
    rw [ownedBy, List.filterMap_append]
    exact h.owned.append h'.owned
  taken := by
    rw [tokensOf_append]
    exact List.append_subset.mpr ⟨fun u hu => List.mem_append_left _ (h.taken hu),
      fun u hu => List.mem_append_right _ (h'.taken hu)⟩
  ordered := by
    rw [List.filterMap_append]
    exact List.forall_mem_append.mpr
      ⟨fun ss hss => (h.ordered ss hss).mono (List.sublist_append_left ts us),
        fun ss hss => (h'.ordered ss hss).mono (List.sublist_append_right ts us)⟩

/-- A node is written with its token, whether or not it owns it. -/
theorem singleton {n : Node} (htoken : n.token? = some t) (hlist : n.list? = none) :
    Written [t] [n] where
  owned := by
    have howned : n.owned? = none ∨ n.owned? = n.token? := by
      unfold Node.owned?
      split
      · exact Or.inl rfl
      · exact Or.inr rfl
    rcases howned with hnone | hsome
    · rw [ownedBy, List.filterMap_cons_none hnone]
      exact List.nil_sublist _
    · rw [ownedBy, List.filterMap_cons_some (hsome.trans htoken)]
      exact List.Sublist.refl _
  taken := by
    rw [tokensOf, List.filterMap_cons_some htoken]
    exact List.Subset.refl _
  ordered := by
    rw [List.filterMap_cons_none hlist]
    exact List.forall_mem_nil _

/-- A node before those that are written behind its token. -/
theorem cons {n : Node} (htoken : n.token? = some t) (hlist : n.list? = none)
    (h : Written ts ns) : Written (t :: ts) (n :: ns) := (singleton htoken hlist).append h

/-! ## Lists of statements -/

/-- The root of a tree is written with any tokens among which its statements are in order. -/
theorem program_iff : Written ts (.program ⟨ss⟩ :: ns) ↔ InOrder ts ss ∧ Written ts ns := by
  constructor
  · intro h
    exact ⟨h.ordered ss List.mem_cons_self,
      ⟨h.owned, h.taken, fun ss' hss' => h.ordered ss' (List.mem_cons_of_mem _ hss')⟩⟩
  · rintro ⟨horder, h⟩
    exact ⟨h.owned, h.taken, List.forall_mem_cons.mpr ⟨horder, h.ordered⟩⟩

theorem program_nil (ts : List Token) : Written ts [.program ⟨[]⟩] :=
  program_iff.mpr ⟨⟨.nil, fun _ _ h => absurd h List.not_mem_nil⟩, nil ts⟩

/-- One statement that is no expression. -/
theorem program_single {x : Stmt} (hx : ∀ t v, x ≠ .expression t v) (h : Written ts x.nodes) :
    Written ts (.program ⟨[x]⟩ :: x.nodes) := by
  refine program_iff.mpr ⟨⟨List.pairwise_singleton _ _, ?_⟩, h⟩
  intro t v hmem
  exact absurd (List.mem_singleton.mp hmem).symm (hx t v)

/-- An expression as a statement borrows the first of the tokens. -/
theorem program_expression {v : Option Expr} (h : Written (t :: ts) (Expr.optionNodes v)) :
    Written (t :: ts) (.program ⟨[.expression t v]⟩ :: (Stmt.expression t v).nodes) := by
  rw [Stmt.nodes]
  refine program_iff.mpr ⟨⟨List.pairwise_singleton _ _, ?_⟩, ?_⟩
  · rintro t' v' hmem u hu
    obtain ⟨rfl, rfl⟩ := Stmt.expression.inj (List.mem_singleton.mp hmem)
    rcases List.mem_cons.mp (h.taken hu) with rfl | htail
    · exact Or.inl rfl
    · exact Or.inr ((List.singleton_sublist.mpr htail).cons_cons _)
  · refine ⟨h.owned, ?_, h.ordered⟩
    exact List.cons_subset.mpr ⟨List.mem_cons_self, h.taken⟩

/-- A statement before others. -/
theorem program_cons {x : Stmt} (h : Written ts (.program ⟨[x]⟩ :: x.nodes))
    (h' : Written us (.program ⟨ss⟩ :: Stmt.listNodes ss)) :
    Written (ts ++ us) (.program ⟨x :: ss⟩ :: Stmt.listNodes (x :: ss)) := by
  obtain ⟨hone, hx⟩ := program_iff.mp h
  obtain ⟨hothers, hss⟩ := program_iff.mp h'
  rw [Stmt.listNodes]
  refine program_iff.mpr ⟨⟨List.pairwise_cons.mpr ⟨?_, ?_⟩, ?_⟩, hx.append hss⟩
  · intro y hy t ht u hu
    -- `t` is one of the first tokens, `u` one of the others
    have hfirst : [t].Sublist ts := List.singleton_sublist.mpr (hx.taken ht)
    have hsecond : [u].Sublist us :=
      List.singleton_sublist.mpr (hss.taken (tokensOf_subset_of_mem hy hu))
    exact hfirst.append hsecond
  · exact (hothers.mono (List.sublist_append_right ts us)).apart
  · intro t v hmem
    rcases List.mem_cons.mp hmem with hhead | htail
    · exact (hone.mono (List.sublist_append_left ts us)).leads t v
        (List.mem_singleton.mpr hhead)
    · exact (hothers.mono (List.sublist_append_right ts us)).leads t v htail

/-- The statements of a block, behind its brace. -/
theorem block (h : Written ts (.program ⟨ss⟩ :: Stmt.listNodes ss)) :
    Written (t :: ts) (Block.mk t ss).nodes := by
  obtain ⟨horder, hss⟩ := program_iff.mp h
  have hlonger : ts.Sublist (t :: ts) := List.sublist_cons_self t ts
  rw [Block.nodes]
  refine ⟨hss.owned.cons_cons t, ?_, ?_⟩
  · exact List.cons_subset.mpr ⟨List.mem_cons_self, List.subset_cons_of_subset t hss.taken⟩
  · exact List.forall_mem_cons.mpr ⟨horder.mono hlonger, (hss.mono hlonger).ordered⟩

end Written
end MonkeyFrontend
