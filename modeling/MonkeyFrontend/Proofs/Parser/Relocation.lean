import MonkeyFrontend.Proofs.Parser.Ownership
import MonkeyFrontend.Proofs.Tree.Moved

/-! # The same tokens at other places

Two texts may have the same tokens at different places, as when one is laid out anew.  The parser
never looks at places, so it goes the same way through both: the trees differ only in that each
node carries the token of the other text at the same index (`parse_aligned`).

The two streams correspond by the function that takes each token of the one text to the token of
the other at its index, and runs on corresponding streams correspond (`Run.map`).  That function
is well defined because the tokens of a text are all different (`nodup_tokenize`).
-/
namespace MonkeyFrontend

/-- A token at the place that the list `us` has for the index of the token in `ts`. -/
def Token.relocate (ts us : List Token) (t : Token) : Token :=
  ⟨t.kind, t.literal, (us.getD (ts.idxOf t) t).position⟩

theorem Token.kind_relocate (ts us : List Token) (t : Token) :
    (t.relocate ts us).kind = t.kind := rfl

theorem Token.literal_relocate (ts us : List Token) (t : Token) :
    (t.relocate ts us).literal = t.literal := rfl

theorem Token.inspect_relocate (ts us : List Token) (t : Token) :
    (t.relocate ts us).inspect = t.inspect := rfl

/-! ## Tokens with the same index -/

section Same

variable {ts us : List Token} (h : ts.map Token.bare = us.map Token.bare)
include h

/-- A token is relocated to the one with its index. -/
theorem Token.relocate_getElem (hts : ts.Nodup) {i : Nat} (hi : i < ts.length)
    (hi' : i < us.length) : ts[i].relocate ts us = us[i] := by
  have hbare : ts[i].bare = us[i].bare := by
    have hget := List.getElem_of_eq h (by rwa [List.length_map])
    rwa [List.getElem_map, List.getElem_map] at hget
  obtain ⟨hkind, hliteral, -⟩ := Token.mk.inj hbare
  rw [relocate, hts.idxOf_getElem, List.getD_eq_getElem _ _ hi', hkind, hliteral]

theorem map_relocate (hts : ts.Nodup) : ts.map (Token.relocate ts us) = us := by
  have hlength : ts.length = us.length := by
    have hmapped := congrArg List.length h
    rwa [List.length_map, List.length_map] at hmapped
  refine List.ext_getElem (by rw [List.length_map, hlength]) fun i hi hi' => ?_
  rw [List.getElem_map]
  exact Token.relocate_getElem h hts _ hi'

end Same

namespace TokenStream

/-- A stream with other tokens. -/
def mapToken (g : Token → Token) (s : TokenStream) : TokenStream :=
  ⟨s.ahead.map g, (g (Token.eof s.stop)).position⟩

section MapToken

variable {g : Token → Token} (hkind : ∀ t, (g t).kind = t.kind)
  (hliteral : ∀ t, (g t).literal = t.literal)
include hkind hliteral

/-- The end token becomes an end token. -/
theorem eof_mapToken (p : Position) : Token.eof (g (Token.eof p)).position = g (Token.eof p) := by
  have hk : (g (Token.eof p)).kind = .eof := hkind _
  have hl : (g (Token.eof p)).literal = "" := hliteral _
  rw [Token.eof, ← hk, ← hl]

theorem toList_mapToken (s : TokenStream) : (s.mapToken g).toList = s.toList.map g := by
  rw [toList, mapToken, eof_mapToken hkind hliteral, toList, List.map_append, List.map_singleton]

/-- A stream corresponds to the one with other tokens of the same kinds and texts. -/
theorem corresponds_mapToken : Corresponds (mapToken g) g where
  current
    | ⟨[], stop⟩ => eof_mapToken hkind hliteral stop
    | ⟨_ :: _, _⟩ => rfl
  advance
    | ⟨[], _⟩ => rfl
    | ⟨_ :: _, _⟩ => rfl
  kind := hkind
  literal := hliteral

theorem current_mapToken (s : TokenStream) : (s.mapToken g).current = g s.current :=
  (corresponds_mapToken hkind hliteral).current s

end MapToken

theorem skip_mapToken (g : Token → Token) (s : TokenStream) (n : Nat) :
    (s.mapToken g).skip n = (s.skip n).mapToken g := by
  rw [skip, mapToken, ← List.map_drop]
  rfl

/-- A stream is determined by its tokens. -/
theorem eq_of_toList {s u : TokenStream} (h : s.toList = u.toList) : s = u := by
  obtain ⟨hahead, hend⟩ := List.append_inj' h rfl
  have hstop : s.stop = u.stop := congrArg Token.position (List.singleton_inj.mp hend)
  obtain ⟨ahead, stop⟩ := s
  obtain rfl : ahead = u.ahead := hahead
  obtain rfl : stop = u.stop := hstop
  rfl

/-- The stream of a text with its tokens relocated is that of the other text. -/
theorem mapToken_ofSource {a b : String}
    (h : (tokenize a).map Token.bare = (tokenize b).map Token.bare) :
    (ofSource a).mapToken (Token.relocate (tokenize a) (tokenize b)) = ofSource b := by
  apply eq_of_toList
  rw [toList_mapToken (Token.kind_relocate _ _) (Token.literal_relocate _ _)]
  exact map_relocate h (nodup_tokenize a)

end TokenStream

namespace Parser

/-! ## Trees of texts with the same tokens -/

/-- The nodes of a tree carry tokens of its text. -/
theorem mem_tokenize_of_parse {source : String} {t : Token}
    (ht : t ∈ tokensOf (parse source).1.nodes) : t ∈ tokenize source := by
  obtain ⟨u, hrun⟩ := parse_eq_iff_run.mp (rfl : parse source = ((parse source).1, _))
  obtain ⟨ts, hts, hwritten⟩ := hrun.owns
  refine List.mem_append_left _ ?_
  rw [hts]
  exact List.mem_append_left _ (hwritten.taken ht)

/-- **How the parses of two texts agree**, that of `b` being that of `a` with tokens of the same
index. -/
structure Aligned (a b : String) : Prop where
  same : (parse a).1.same (parse b).1 = true
  diagnostics : (parse b).2 = (parse a).2
  render : (parse b).1.render = (parse a).1.render
  inspect : (parse b).1.inspect = (parse a).1.inspect
  /-- The data only differs in lines and columns. -/
  toJson : (parse b).1.toJson.unplaced = (parse a).1.toJson.unplaced
  /-- Corresponding nodes carry tokens of the same index. -/
  indices : ∃ is : List Nat, tokensOf (parse a).1.nodes = is.map (tokenAt a) ∧
    tokensOf (parse b).1.nodes = is.map (tokenAt b)
  /-- Replacing every token by the one of its index gives the other tree. -/
  relocated : (parse b).1 =
    (parse a).1.mapToken (.relocate (tokenize a) (tokenize b))
  relocate : ∀ i, (tokenAt a i).relocate (tokenize a) (tokenize b) = tokenAt b i

/-- The other text is parsed to the tree with its tokens relocated. -/
theorem parse_relocate {a b : String}
    (h : (tokenize a).map Token.bare = (tokenize b).map Token.bare) :
    parse b =
      ((parse a).1.mapToken (.relocate (tokenize a) (tokenize b)), (parse a).2) := by
  obtain ⟨t, hrun⟩ := parse_eq_iff_run.mp (rfl : parse a = ((parse a).1, (parse a).2))
  have hmoved := hrun.map (TokenStream.corresponds_mapToken
    (Token.kind_relocate (tokenize a) (tokenize b)) (Token.literal_relocate _ _))
  rw [TokenStream.mapToken_ofSource h] at hmoved
  exact parse_eq_iff_run.mpr ⟨_, hmoved⟩

/-- The token at an index is relocated to the other text's token at that index. -/
theorem relocate_tokenAt {a b : String}
    (h : (tokenize a).map Token.bare = (tokenize b).map Token.bare) (i : Nat) :
    (tokenAt a i).relocate (tokenize a) (tokenize b) = tokenAt b i := by
  rw [← TokenStream.current_skip b, ← TokenStream.mapToken_ofSource h, TokenStream.skip_mapToken,
    TokenStream.current_mapToken (Token.kind_relocate _ _) (Token.literal_relocate _ _),
    TokenStream.current_skip]

theorem tokensOf_mapToken (g : Token → Token) (p : Program) :
    tokensOf (p.mapToken g).nodes = (tokensOf p.nodes).map g := by
  have hnodes : (p.mapToken g).nodes = p.nodes.map (Node.mapToken g) :=
    Stmt.listNodes_mapToken p.statements
  rw [hnodes, tokensOf, List.filterMap_map, tokensOf, List.map_filterMap]
  exact congrArg (List.filterMap · p.nodes) (funext Node.token?_mapToken)

/-- **Parsing does not depend on the layout of a text.**  Two texts whose tokens have the same
kinds and texts, well formed or not, are parsed to trees that agree but for the places of their
tokens, with the same diagnostics. -/
theorem parse_aligned {a b : String}
    (h : (tokenize a).map Token.bare = (tokenize b).map Token.bare) : Aligned a b := by
  constructor
  case diagnostics => rw [parse_relocate h]
  case relocated => rw [parse_relocate h]
  case relocate => exact relocate_tokenAt h
  case same =>
    rw [parse_relocate h]
    exact Program.same_mapToken (Token.kind_relocate _ _) (Token.literal_relocate _ _) _
  case render =>
    rw [parse_relocate h]
    exact Program.render_mapToken (Token.literal_relocate _ _) _
  case inspect =>
    rw [parse_relocate h]
    exact Program.inspect_mapToken (Token.inspect_relocate _ _) _
  case toJson =>
    rw [parse_relocate h]
    exact Program.unplaced_mapToken _
  case indices =>
    have hfound : ∀ t ∈ tokensOf (parse a).1.nodes, tokenAt a ((tokenize a).idxOf t) = t :=
      fun t ht => tokenAt_idxOf (mem_tokenize_of_parse ht)
    refine ⟨(tokensOf (parse a).1.nodes).map (tokenize a).idxOf, ?_, ?_⟩
    · rw [List.map_map]
      exact (List.map_id _).symm.trans (List.map_congr_left fun t ht => (hfound t ht).symm)
    · rw [parse_relocate h, tokensOf_mapToken, List.map_map]
      refine List.map_congr_left fun t ht => ?_
      rw [Function.comp_apply, ← relocate_tokenAt h, hfound t ht]

/-- A text with an unclosed block and a missing operand, on one line and on three. -/
theorem parse_aligned_unclosed :
    (tokenize "if (a) \x7b b +").map Token.bare = (tokenize "if(a)\n \x7b\n  b+").map Token.bare ∧
      Aligned "if (a) \x7b b +" "if(a)\n \x7b\n  b+" := by
  have htokens : (tokenize "if (a) \x7b b +").map Token.bare =
      (tokenize "if(a)\n \x7b\n  b+").map Token.bare := by decide +kernel
  exact ⟨htokens, parse_aligned htokens⟩

end Parser
end MonkeyFrontend
