import MonkeyFrontend.Proofs.Parser.Exact
import MonkeyFrontend.Proofs.Parser.Nesting
import MonkeyFrontend.Proofs.Session.Entries
import MonkeyFrontend.Proofs.Tree.Nodes

/-! # Blocks and their braces

Braces are counted three times: as characters while an entry is typed, as tokens of the text, and
by the parser, which opens a block at each of them.  In a text that is parsed without a diagnostic
the three agree (`braces_agree`).

A block is opened only at an opening brace, and how it is read depends on nothing that was read
before.  So the blocks of a text are those that begin at its opening braces.  The grammar says
where each of them ends (`Derives.braced`): at the brace that matches its own, or at the end of
the text.  A closing brace is never left for a block further out.
-/
namespace MonkeyFrontend

open TokenSupply

/-! ## The blocks of a tree -/

namespace Grammar

/-- **The blocks among some nodes are opened by some tokens**: each stands there, an opening brace
before its body. -/
def Opened (ts : List Token) (ns : List Node) : Prop := ∀ b, .statement (.block b) ∈ ns →
  b.token.kind = .lbrace ∧ ∃ us last, b.token :: us <:+ ts ∧ Body us b.statements last

namespace Opened

variable {ts us : List Token} {ms ns : List Node}

theorem nil (ts : List Token) : Opened ts [] := nofun

theorem mono (h : Opened ts ns) (hsuffix : ts <:+ us) : Opened us ns := by
  intro b hb
  obtain ⟨hkind, vs, last, hvs, hbody⟩ := h b hb
  exact ⟨hkind, vs, last, hvs.trans hsuffix, hbody⟩

theorem behind {t : Token} (h : Opened ts ns) : Opened (t :: ts) ns :=
  h.mono (List.suffix_cons t ts)

theorem append (h : Opened ts ms) (h' : Opened ts ns) : Opened ts (ms ++ ns) := by
  intro b hb
  rcases List.mem_append.mp hb with hms | hns
  · exact h b hms
  · exact h' b hns

/-- A node that is no block. -/
theorem cons {n : Node} (h : Opened ts ns) (hn : ∀ b, n ≠ .statement (.block b)) :
    Opened ts (n :: ns) := by
  intro b hb
  rcases List.mem_cons.mp hb with heq | hns
  · exact absurd heq.symm (hn b)
  · exact h b hns

theorem names (ts : List Token) (ps : List Identifier) : Opened ts (ps.map Identifier.node) := by
  intro b hb
  obtain ⟨i, -, heq⟩ := List.mem_map.mp hb
  nomatch heq

/-- A block before those within it. -/
theorem block {ss : List Stmt} {l : Token} {last : List Token}
    (h : Opened ts (Stmt.listNodes ss)) (hl : l.kind = .lbrace) (hbody : Body ts ss last) :
    Opened (l :: ts) (Block.mk l ss).nodes := by
  intro b hb
  rcases List.mem_cons.mp hb with heq | hns
  · obtain rfl : b = .mk l ss := Stmt.block.inj (Node.statement.inj heq)
    exact ⟨hl, ts, last, List.suffix_rfl, hbody⟩
  · exact h.behind b hns

end Opened

/-- The nodes of the tree of a phrase.  Those of names are left out. -/
def Phrase.nodes : (x : Phrase) → x.Tree → List Node
  | expression _ | values => Expr.nodes
  | parameters | moreParameters => fun _ => []
  | alternative => Block.optionNodes
  | block => Block.nodes
  | statements => Stmt.listNodes
  | statement => Stmt.nodes

/-- **Every block of a tree was opened by a brace of its text.** -/
theorem Derives.opened {x : Phrase} {ts rest : List Token} {v : x.Tree}
    (h : Derives x ts v rest) : Opened ts (x.nodes v) := by
  induction h with
  | tighter _ _ _ ih | value _ _ ih => exact ih
  | no_parameters | last_parameter | parameters | more_parameters | no_alternative
  | no_statements => exact .nil _
  | identifier | integer | boolean => exact (Opened.nil _).cons nofun
  | unary _ _ ih => exact ih.behind.cons nofun
  | grouped _ _ _ ih | alternative _ _ ih => exact ih.behind
  | values h₁ _ _ _ ih₂ => exact ih₂.mono h₁.suffix
  | block_closed hl h hr ih => exact ih.block hl (.closed h hr)
  | block_end hl h ih => exact ih.block hl (.open_end h)
  | statements h₁ _ ih₁ ih₂ => exact ih₁.append (ih₂.mono h₁.suffix)
  | binary _ h₁ _ ih₁ ih₂ =>
    show Opened _ (Expr.nodes _)
    rw [Expr.nodes]
    exact ih₁.append ((ih₂.behind.mono h₁.suffix).cons nofun)
  | conditional _ _ h₁ _ h₂ _ ih₁ ih₂ ih₃ =>
    show Opened _ (Expr.nodes _)
    rw [Expr.nodes]
    have hbranches := ih₂.append (ih₃.mono h₂.suffix)
    exact (ih₁.append (hbranches.behind.mono h₁.suffix)).behind.behind.cons nofun
  | function _ _ h₁ _ _ ih₂ =>
    show Opened _ (Expr.nodes _)
    rw [Expr.nodes]
    exact ((Opened.names _ _).append (ih₂.mono h₁.suffix)).behind.behind.cons nofun
  | letting_closed _ _ _ _ _ ih | letting_end _ _ _ _ ih =>
    show Opened _ (Stmt.nodes _)
    rw [Stmt.nodes]
    exact ((Opened.names _ _).append ih).behind.behind.behind.cons nofun
  | returning_closed _ _ _ ih | returning_end _ _ ih =>
    show Opened _ (Stmt.nodes _)
    rw [Stmt.nodes]
    exact ih.behind.cons nofun
  | expression_closed _ _ ih | expression _ _ ih =>
    show Opened _ (Stmt.nodes _)
    rw [Stmt.nodes]
    exact ih.cons nofun

end Grammar

/-! ## Matching braces -/

/-- **The brace at index `j` matches the one at index `i`**: the braces between them are closed
where they should be, and all of them. -/
structure Partners (source : String) (i j : Nat) : Prop where
  before : i < j
  opening : (tokenAt source i).kind = .lbrace
  closing : (tokenAt source j).kind = .rbrace
  nested : Nested (((tokenize source).take j).drop (i + 1))
  closed : nesting (((tokenize source).take j).drop (i + 1)) = 0

/-- The tokens between two indices, up to the last one of the text. -/
theorem tokens_between {source : String} {j : Nat}
    (hj : j ≤ (TokenStream.ofSource source).ahead.length) (i : Nat) :
    ((tokenize source).take j).drop i =
      ((TokenStream.ofSource source).ahead.drop i).take (j - i) := by
  rw [tokenize, TokenStream.toList, List.take_append_of_le_length hj, List.drop_take]

/-- Behind the last token there is only the end token. -/
theorem lt_length_of_kind {source : String} {i : Nat} {k : Kind}
    (h : (tokenAt source i).kind = k) (hk : k ≠ .eof) :
    i < (TokenStream.ofSource source).ahead.length := by
  by_contra hle
  have hnone : (TokenStream.ofSource source).ahead.drop i = [] :=
    List.drop_of_length_le (Nat.le_of_not_lt hle)
  rw [← TokenStream.current_skip, TokenStream.skip, hnone] at h
  exact hk h.symm

/-- A token that is not the end token stands before those behind it. -/
theorem drop_eq_cons {source : String} {i : Nat} {k : Kind}
    (h : (tokenAt source i).kind = k) (hk : k ≠ .eof) :
    (TokenStream.ofSource source).ahead.drop i =
      tokenAt source i :: (TokenStream.ofSource source).ahead.drop (i + 1) := by
  have hcurrent : current ((TokenStream.ofSource source).skip i) = tokenAt source i :=
    TokenStream.current_skip source i
  have hne : (current ((TokenStream.ofSource source).skip i)).kind ≠ .eof := by
    rw [hcurrent, h]
    exact hk
  have hcons := TokenStream.ahead_eq_cons hne
  rw [hcurrent] at hcons
  rw [← List.tail_drop]
  exact hcons

namespace Partners

variable {source : String} {i j k : Nat}

/-- Up to a closing brace, one more brace is closed than is opened behind its partner. -/
theorem nesting_take (h : Partners source i j) :
    nesting (((TokenStream.ofSource source).ahead.drop (i + 1)).take (j - (i + 1) + 1)) = -1 := by
  have hj := lt_length_of_kind h.closing nofun
  have hclosed := h.closed
  rw [tokens_between (Nat.le_of_lt hj)] at hclosed
  have hlast : ((TokenStream.ofSource source).ahead.drop (i + 1))[j - (i + 1)]? =
      some (tokenAt source j) := by
    rw [List.getElem?_drop, Nat.add_sub_cancel' h.before, ← List.head?_drop,
      drop_eq_cons h.closing nofun, List.head?_cons]
  rw [List.take_add_one, hlast, nesting_append, hclosed, Option.toList_some,
    nesting_rbrace h.closing]
  rfl

/-- No brace has two partners. -/
theorem unique (h : Partners source i j) (h' : Partners source i k) : j = k := by
  have hnot : ∀ {m n : Nat}, Partners source i m → Partners source i n → ¬ m < n := by
    intro m n hm hn hlt
    have hnested := hn.nested
    have hbefore := hm.before
    rw [tokens_between (Nat.le_of_lt (lt_length_of_kind hn.closing nofun))] at hnested
    have hle := hnested _ (List.take_prefix_take_left (by omega : m - (i + 1) + 1 ≤ n - (i + 1)))
    rw [hm.nesting_take] at hle
    contradiction
  exact Nat.le_antisymm (Nat.le_of_not_lt (hnot h' h)) (Nat.le_of_not_lt (hnot h h'))

end Partners

/-- If behind an opening brace no brace is closed too many, it has no partner. -/
theorem not_partners {source : String} {i : Nat}
    (h : Nested ((TokenStream.ofSource source).ahead.drop (i + 1))) (j : Nat) :
    ¬ Partners source i j := by
  intro hpartners
  have hle := h _ (List.take_prefix (j - (i + 1) + 1) _)
  rw [hpartners.nesting_take] at hle
  contradiction

/-! ## Where a block ends -/

/-- Reading a block at an index of a text. -/
def readBlock (source : String) (i : Nat) : Reply × Reader :=
  (Reader.ofSource source i).perform .block

namespace Parser

open Grammar

/-- A block is read as the grammar says. -/
theorem readBlock_of_body {source : String} {i : Nat} {us last : List Token} {l : Token}
    {ss : List Stmt} (hstart : (TokenStream.ofSource source).ahead.drop i = l :: us)
    (h : Body us ss last) :
    (readBlock source i).1 = .tree (some (.statement (.block (.mk l ss)))) ∧
      (readBlock source i).2.diagnostics = [] ∧
      (readBlock source i).2.stream.toStream = ⟨last, (TokenStream.ofSource source).stop⟩ := by
  have hspelled : ∀ t ∈ us, Spells t.kind t.literal := by
    intro t ht
    have hmem : t ∈ (TokenStream.ofSource source).ahead.drop i := by
      rw [hstart]
      exact List.mem_cons_of_mem _ ht
    exact TokenStream.spelled_ofSource source t (List.mem_of_mem_drop hmem)
  have hblock := Run.block (s := TokenStream.mk (l :: us) (TokenStream.ofSource source).stop)
    (h.derives.read hspelled .rbrace (Or.inl rfl) fun r hr => ⟨h.closing r hr, rfl⟩)
  -- the reader of the text does what the stream of its tokens does
  have hstream : (Reader.ofSource source i).stream.toStream =
      ⟨l :: us, (TokenStream.ofSource source).stop⟩ := by
    rw [← hstart]
    exact congrArg Reader.stream (Reader.along_ofSource source i)
  have hrun := (run_read .block (Reader.ofSource source i).stream).map_id Window.corresponds
  rw [hstream] at hrun
  obtain ⟨hvalue, hfound, hend⟩ := hrun.unique hblock
  exact ⟨congrArg (fun b => Reply.tree (some (.statement (.block b)))) hvalue, hfound, hend⟩

/-- **The extent of the block at an index**: it is read up to the tokens `last`, and between its
opening brace and these there are the tokens `inner`. -/
structure Extent (source : String) (i : Nat) (inner last : List Token) : Prop where
  opening : (tokenAt source i).kind = .lbrace
  split : (TokenStream.ofSource source).ahead.drop (i + 1) = inner ++ last
  nested : Nested inner
  closed : last ≠ [] → nesting inner = 0
  closing : ∀ r ∈ last.head?, r.kind = .rbrace
  quiet : (readBlock source i).2.diagnostics = []
  stream : (readBlock source i).2.stream.toStream = ⟨last, (TokenStream.ofSource source).stop⟩

/-- The block at every opening brace of a text without diagnostics has an extent. -/
theorem exists_extent {source : String} {p : Program} (h : parse source = (p, [])) {i : Nat}
    (hi : (tokenAt source i).kind = .lbrace) : ∃ inner last, Extent source i inner last := by
  have hbraced := (parse_eq_iff_derives.mp h).braced
  have hstart := drop_eq_cons hi nofun
  have hsuffix : tokenAt source i :: (TokenStream.ofSource source).ahead.drop (i + 1) <:+
      (TokenStream.ofSource source).ahead := hstart ▸ List.drop_suffix i _
  obtain ⟨ss, last, hbody⟩ := hbraced.blocks _ _ hsuffix (Nat.zero_le _) hi
  obtain ⟨inner, hinner, hnested, hclosed⟩ := hbody.derives.braced.nested
  obtain ⟨-, hquiet, hstream⟩ := readBlock_of_body hstart hbody
  exact ⟨inner, last, hi, hinner, hnested, hclosed, hbody.closing, hquiet, hstream⟩

namespace Extent

variable {source : String} {i : Nat} {inner last : List Token}

/-- The block ends on the first token of those behind it. -/
theorem current_eq_headD (h : Extent source i inner last) :
    current (readBlock source i).2.stream =
      last.headD (Token.eof (TokenStream.ofSource source).stop) := by
  have hcurrent : current (readBlock source i).2.stream =
      (readBlock source i).2.stream.toStream.current := (Window.current_toStream _).symm
  rw [hcurrent, h.stream]
  rfl

/-- That is the token behind the inner ones. -/
theorem current_eq (h : Extent source i inner last) :
    current (readBlock source i).2.stream = tokenAt source (i + 1 + inner.length) := by
  have hskip : (TokenStream.ofSource source).skip (i + 1 + inner.length) =
      ⟨last, (TokenStream.ofSource source).stop⟩ := by
    rw [TokenStream.skip, ← List.drop_drop, h.split, List.drop_left]
  rw [← TokenStream.current_skip, hskip, h.current_eq_headD]
  rfl

/-- A block with tokens left behind ends on the partner of its opening brace. -/
theorem partners (h : Extent source i inner last) (hne : last ≠ []) :
    Partners source i (i + 1 + inner.length) := by
  obtain ⟨r, rest, rfl⟩ := List.exists_cons_of_ne_nil hne
  have hlength := congrArg List.length h.split
  rw [List.length_drop, List.length_append, List.length_cons] at hlength
  have hlast : tokenAt source (i + 1 + inner.length) = r := by
    rw [← h.current_eq, h.current_eq_headD, List.headD_cons]
  have hbetween : ((tokenize source).take (i + 1 + inner.length)).drop (i + 1) = inner := by
    rw [tokens_between (by omega), h.split, Nat.add_sub_cancel_left, List.take_left]
  refine ⟨by omega, h.opening, ?_, ?_, ?_⟩
  · rw [hlast]
    exact h.closing r rfl
  · rw [hbetween]
    exact h.nested
  · rw [hbetween]
    exact h.closed hne

/-- A block that the end of the text closes has no brace that could have closed it. -/
theorem unmatched (h : Extent source i inner []) (j : Nat) : ¬ Partners source i j := by
  apply not_partners
  rw [h.split, List.append_nil]
  exact h.nested

end Extent

/-- A text has as many braces of each sort as brace tokens. -/
theorem count_tokenize (source : String) {c : Char} {b : Kind} (hc : IsBrace c b) :
    source.toList.count c = (tokenize source).countP (fun t => t.kind == b) := by
  have hend : ∀ stop, [Token.eof stop].countP (fun t => t.kind == b) = 0 := by
    intro stop
    rcases hc with ⟨-, rfl⟩ | ⟨-, rfl⟩ <;> rfl
  rw [tokenize, TokenStream.toList, List.countP_append, hend, Nat.add_zero]
  exact (TokenStream.cuts_ofSource source).count_brace hc

/-- **How the braces stand in a text without diagnostics** and with the tree `p`. -/
structure Matched (source : String) (p : Program) : Prop where
  /-- Up to no place are more braces closed than opened. -/
  prefixes (cs : List Char) (h : cs <+: source.toList) : cs.count '}' ≤ cs.count '{'
  /-- Each block of the tree is what is read at an opening brace. -/
  opened (b : Block) (h : .statement (.block b) ∈ p.nodes) : ∃ i,
    (tokenAt source i).kind = .lbrace ∧ b.token = tokenAt source i ∧
      (readBlock source i).1 = .tree (some (.statement (.block b)))
  /-- What is read at an opening brace gives no diagnostic. -/
  quiet (i : Nat) (h : (tokenAt source i).kind = .lbrace) :
    (readBlock source i).2.diagnostics = []
  /-- It ends on the only partner of this brace or, if there is none, at the end of the text. -/
  ends (i : Nat) (h : (tokenAt source i).kind = .lbrace) : ∃ j,
    current (readBlock source i).2.stream = tokenAt source j ∧
      (Partners source i j ∧ (∀ k, Partners source i k → k = j) ∨
        (tokenAt source j).kind = .eof ∧ ∀ k, ¬ Partners source i k)

/-- The tokens of a text without diagnostics close no brace too many. -/
theorem nested_of_parse {source : String} {p : Program} (h : parse source = (p, [])) :
    Nested (TokenStream.ofSource source).ahead := by
  obtain ⟨front, hfront, hnested, -⟩ := (parse_eq_iff_derives.mp h).braced.nested
  rw [hfront, List.append_nil]
  exact hnested

theorem matched_of_parse {source : String} {p : Program} (h : parse source = (p, [])) :
    Matched source p where
  prefixes cs hcs := by
    have hcut := TokenStream.cuts_ofSource source
    obtain ⟨us, hus, hexcess⟩ := hcut.exists_prefix hcs
    have hle := nested_of_parse h us hus
    rw [hexcess, excess] at hle
    omega
  opened b hb := by
    obtain ⟨hkind, us, last, ⟨front, hfront⟩, hbody⟩ := (parse_eq_iff_derives.mp h).opened b hb
    have hstart : (TokenStream.ofSource source).ahead.drop front.length = b.token :: us := by
      rw [← hfront, List.drop_left]
    have htoken : b.token = tokenAt source front.length := by
      rw [← TokenStream.current_skip, TokenStream.skip, hstart]
      rfl
    obtain ⟨hvalue, -, -⟩ := readBlock_of_body hstart hbody
    refine ⟨front.length, htoken ▸ hkind, htoken, ?_⟩
    rw [hvalue]
    cases b
    rfl
  quiet i hi := by
    obtain ⟨inner, last, hextent⟩ := exists_extent h hi
    exact hextent.quiet
  ends i hi := by
    obtain ⟨inner, last, hextent⟩ := exists_extent h hi
    refine ⟨i + 1 + inner.length, hextent.current_eq, ?_⟩
    by_cases hnil : last = []
    · subst hnil
      right
      refine ⟨?_, hextent.unmatched⟩
      rw [← hextent.current_eq, hextent.current_eq_headD]
      rfl
    · have hpartners := hextent.partners hnil
      exact Or.inl ⟨hpartners, fun k hk => hk.unique hpartners⟩

/-- Where as many braces are closed as opened, the end of the text closes no block. -/
theorem ne_nil_of_count {source : String} {p : Program} (h : parse source = (p, []))
    (hcount : source.toList.count '{' = source.toList.count '}') {i : Nat} {inner last : List Token}
    (hextent : Extent source i inner last) : last ≠ [] := by
  rintro rfl
  have htotal : nesting (TokenStream.ofSource source).ahead = 0 := by
    rw [(TokenStream.cuts_ofSource source).nesting_eq, hcount, Int.sub_self]
  have hbefore := nested_of_parse h _ (List.take_prefix i _)
  have hinner := hextent.nested inner List.prefix_rfl
  rw [← List.take_append_drop i (TokenStream.ofSource source).ahead, nesting_append,
    drop_eq_cons hextent.opening nofun, hextent.split, List.append_nil,
    nesting_lbrace hextent.opening] at htotal
  omega

/-- **Braces match in every text that is parsed without a diagnostic**, and however they are
counted, the counts agree.  So an entry of a session that is parsed without a diagnostic has as
many opening as closing braces, and the end of the text closes none of its blocks. -/
theorem braces_agree :
    (∀ source : String,
      source.toList.count '{' = (tokenize source).countP (fun t => t.kind == .lbrace) ∧
      source.toList.count '}' = (tokenize source).countP (fun t => t.kind == .rbrace)) ∧
    (∀ source p, parse source = (p, []) → Matched source p) ∧
    ∀ lines s p, some (.text s) ∈ (Session.entries lines).1 → parse s = (p, []) →
      s.toList.count '{' = s.toList.count '}' ∧
        ∀ i, (tokenAt s i).kind = .lbrace →
          ∃ j, current (readBlock s i).2.stream = tokenAt s j ∧ Partners s i j := by
  refine ⟨fun source => ?_, fun source p h => matched_of_parse h, fun lines s p hentry h => ?_⟩
  · exact ⟨count_tokenize source (Or.inl ⟨rfl, rfl⟩), count_tokenize source (Or.inr ⟨rfl, rfl⟩)⟩
  · have hle := Session.balance_le_of_mem_entries hentry
    have hge := (matched_of_parse h).prefixes s.toList List.prefix_rfl
    rw [Session.balance] at hle
    have hcount : s.toList.count '{' = s.toList.count '}' := by omega
    refine ⟨hcount, fun i hi => ?_⟩
    obtain ⟨inner, last, hextent⟩ := exists_extent h hi
    exact ⟨_, hextent.current_eq, hextent.partners (ne_nil_of_count h hcount hextent)⟩

/-- A function typed on two lines. -/
theorem braces_agree_function :
    some (.text "fn() \x7b\n a \x7d") ∈ (Session.entries ["fn() \x7b", " a \x7d"]).1 ∧
      ∃ p, parse "fn() \x7b\n a \x7d" = (p, []) ∧ Matched "fn() \x7b\n a \x7d" p ∧
        ∀ i, (tokenAt "fn() \x7b\n a \x7d" i).kind = .lbrace →
          ∃ j, current (readBlock "fn() \x7b\n a \x7d" i).2.stream =
            tokenAt "fn() \x7b\n a \x7d" j ∧ Partners "fn() \x7b\n a \x7d" i j := by
  have hread : (Session.read .empty ["fn() \x7b", " a \x7d"]).typed? =
      some (.text "fn() \x7b\n a \x7d") := by decide
  have hentry := Session.mem_entries_of_read hread
  have htokens : (TokenStream.ofSource "fn() \x7b\n a \x7d").ahead =
      [⟨.functionWord, "fn", ⟨1, 1⟩⟩, ⟨.lparen, "(", ⟨1, 3⟩⟩, ⟨.rparen, ")", ⟨1, 4⟩⟩,
        ⟨.lbrace, "\x7b", ⟨1, 6⟩⟩, ⟨.ident, "a", ⟨2, 2⟩⟩, ⟨.rbrace, "\x7d", ⟨2, 4⟩⟩] := by decide +kernel
  have hname : Derives (.expression 5) [⟨.ident, "a", ⟨2, 2⟩⟩, ⟨.rbrace, "\x7d", ⟨2, 4⟩⟩] _
      [⟨.rbrace, "\x7d", ⟨2, 4⟩⟩] := .identifier rfl
  have hbody := Derives.statements
    (.expression (hname.looser le_rfl (by decide) le_rfl) (by simp [NoMinus])) .no_statements
  have hfunction : Derives (.expression 5)
      [⟨.functionWord, "fn", ⟨1, 1⟩⟩, ⟨.lparen, "(", ⟨1, 3⟩⟩, ⟨.rparen, ")", ⟨1, 4⟩⟩,
        ⟨.lbrace, "\x7b", ⟨1, 6⟩⟩, ⟨.ident, "a", ⟨2, 2⟩⟩, ⟨.rbrace, "\x7d", ⟨2, 4⟩⟩] _ [] :=
    .function rfl rfl (.no_parameters rfl) (.block_closed rfl hbody rfl)
  have hderives := Derives.statements
    (.expression (hfunction.looser le_rfl (by decide) le_rfl) (by simp [NoMinus])) .no_statements
  rw [← htokens] at hderives
  have hparse := parse_eq_iff_derives.mpr hderives
  obtain ⟨-, hmatched, hsession⟩ := braces_agree
  exact ⟨hentry, _, hparse, hmatched _ _ hparse, (hsession _ _ _ hentry hparse).2⟩

end Parser
end MonkeyFrontend
