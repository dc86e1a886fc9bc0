import MonkeyFrontend.Proofs.Parser.Walk

/-! # How far ahead a parser looks

A program is read in rounds, a statement and the token behind it in each.  After any number of
rounds everything that the parser has found depends only on the tokens it has read: the current
one, the upcoming one and those before them (`rounds_agree`).  What comes later in the text
decides nothing.

The parser is run on a supply that counts the tokens read from it.  Between the supplies of two
texts stands the supply of indices: it corresponds to the one everywhere, and to the other as far
as the texts have the same tokens.
-/
namespace MonkeyFrontend

open TokenSupply

/-! ## Counting the tokens that are read -/

/-- A supply with the number of tokens that have been read from the text, the current and the
upcoming one included. -/
structure Metered (σ : Type) where
  supply : σ
  pulled : Nat

namespace Metered

instance {σ : Type} [TokenSupply σ] : TokenSupply (Metered σ) where
  current s := current s.supply
  upcoming s := upcoming s.supply
  advance s := ⟨advance s.supply, s.pulled + 1⟩
  size s := size s.supply
  upcoming_eq s := upcoming_eq s.supply
  size_advance s := size_advance s.supply
  size_pos s := size_pos s.supply

/-- The window on a source text, with its first two tokens read. -/
def ofSource (source : String) : Metered Window := ⟨Window.ofSource source, 2⟩

end Metered

/-! ## Rounds of a parser -/

namespace Parser

/-- What a parser has read of a program between two rounds. -/
structure Progress (σ : Type) where
  statements : List Stmt
  found : List Diagnostic
  stream : σ

namespace Progress

variable {σ τ : Type} [TokenSupply σ] [TokenSupply τ] {P : σ → Prop} {f : σ → τ}

/-- The parser before its first round. -/
def start (s : σ) : Progress σ := ⟨[], [], s⟩

/-- One round: a statement is read and the token behind it is made the current one.  At the end
of the text there is none. -/
def round (p : Progress σ) : Option (Progress σ) :=
  if (current p.stream).kind = .eof then none
  else
    let next := statement p.stream
    some ⟨p.statements ++ [next.value], p.found ++ next.found, advance next.stream⟩

/-- A number of rounds, if so many can be made. -/
def rounds : Nat → Progress σ → Option (Progress σ)
  | 0, p => some p
  | m + 1, p => (rounds m p).bind round

/-- The same progress at the corresponding place. -/
def along (f : σ → τ) (p : Progress σ) : Progress τ := ⟨p.statements, p.found, f p.stream⟩

theorem round_of_run {p : Progress σ} {x : Stmt} {ds : List Diagnostic} {t : σ}
    (h : (current p.stream).kind ≠ .eof) (hrun : Run .statement p.stream x ds t) :
    p.round = some ⟨p.statements ++ [x], p.found ++ ds, advance t⟩ := by
  obtain ⟨_, heq⟩ := hrun.gives
  have hstatement : statement p.stream = ⟨x, ds, t, _⟩ := heq
  rw [round, if_neg h, hstatement]

/-- What one round does. -/
theorem run_of_round {p q : Progress σ} (h : p.round = some q) :
    (current p.stream).kind ≠ .eof ∧ ∃ x ds t, Run .statement p.stream x ds t ∧
      q = ⟨p.statements ++ [x], p.found ++ ds, advance t⟩ := by
  by_cases hend : (current p.stream).kind = .eof
  · rw [round, if_pos hend] at h
    contradiction
  · have hrun : Run .statement p.stream _ _ _ := run_read .statement p.stream
    rw [round_of_run hend hrun] at h
    exact ⟨hend, _, _, _, hrun, (Option.some.inj h).symm⟩

theorem rounds_succ_eq_some {m : Nat} {p r : Progress σ} (h : rounds (m + 1) p = some r) :
    ∃ q, rounds m p = some q ∧ q.round = some r := Option.bind_eq_some_iff.mp h

/-! ## Rounds on corresponding supplies -/

/-- A round is determined by what it sees. -/
theorem round_along (hf : CorrespondsWhile P f id) {p q : Progress σ} (h : p.round = some q)
    (hq : P q.stream) : (p.along f).round = some (q.along f) := by
  obtain ⟨hend, x, ds, t, hrun, rfl⟩ := run_of_round h
  have ht : P t := hf.back t hq
  have hp : P p.stream := hf.of_ahead hrun.ahead ht
  have hend' : (current (f p.stream)).kind ≠ .eof := by rwa [hf.current_kind hp]
  rw [round_of_run hend' (hrun.map_id_while hf ht), hf.advance t ht]
  rfl

/-- So are any number of rounds. -/
theorem rounds_along (hf : CorrespondsWhile P f id) {m : Nat} {p q : Progress σ}
    (h : rounds m p = some q) (hq : P q.stream) :
    rounds m (p.along f) = some (q.along f) := by
  induction m generalizing q with
  | zero =>
    obtain rfl := Option.some.inj h
    rfl
  | succ m ih =>
    obtain ⟨r, hr, hround⟩ := rounds_succ_eq_some h
    have hlast := round_along hf hround hq
    obtain ⟨-, x, ds, t, hrun, rfl⟩ := run_of_round hround
    have hbefore : P r.stream := hf.of_ahead hrun.ahead.advance hq
    rw [rounds, ih hr hbefore]
    exact hlast

/-- Where supplies correspond everywhere, every round on the one is a round on the other. -/
theorem exists_rounds_of_along (hf : Corresponds f id) {m : Nat} {p : Progress σ}
    {q : Progress τ} (h : rounds m (p.along f) = some q) :
    ∃ r, rounds m p = some r ∧ q = r.along f := by
  induction m generalizing q with
  | zero => exact ⟨p, rfl, (Option.some.inj h).symm⟩
  | succ m ih =>
    obtain ⟨q', hq', hround⟩ := rounds_succ_eq_some h
    obtain ⟨r, hr, rfl⟩ := ih hq'
    have hend : (current (r.along f).stream).kind ≠ .eof := (run_of_round hround).1
    have hkind : (current (f r.stream)).kind = (current r.stream).kind :=
      hf.always.current_kind trivial
    have hstep := round_of_run (hkind ▸ hend) (run_read .statement r.stream)
    have himage := round_along hf.always hstep trivial
    refine ⟨_, ?_, Option.some.inj (hround.symm.trans himage)⟩
    rw [rounds, hr]
    exact hstep

end Progress

/-- What rounds make of statements that are read to the end of the text. -/
def Construct.Rounds {σ : Type} [TokenSupply σ] :
    (c : Construct) → σ → c.Value → List Diagnostic → σ → Prop
  | .statements k, s, ss, ds, t => k = .eof → ∀ (p₀ p : Progress σ) (m : Nat),
    Progress.rounds m p₀ = some p → p.stream = s →
      ∃ n, Progress.rounds n p₀ = some ⟨p.statements ++ ss, p.found ++ ds, t⟩
  | _, _, _, _, _ => True

theorem Run.rounds {σ : Type} [TokenSupply σ] {c : Construct} {s t : σ} {v : c.Value}
    {ds : List Diagnostic} (h : Run c s v ds t) : c.Rounds s v ds t := by
  induction h with
  | statements_stop =>
    rintro - p₀ p m hp rfl
    exact ⟨m, by rw [hp, List.append_nil, List.append_nil]⟩
  | @statements_step k s ds t es u x xs hend hrun _ _ ih =>
    rintro rfl p₀ p m hp rfl
    have hnext : Progress.rounds (m + 1) p₀ =
        some ⟨p.statements ++ [x], p.found ++ ds, advance t⟩ := by
      rw [Progress.rounds, hp]
      exact Progress.round_of_run (fun h => hend (Or.inr h)) hrun
    obtain ⟨n, hn⟩ := ih rfl p₀ _ (m + 1) hnext rfl
    refine ⟨n, hn.trans ?_⟩
    rw [List.append_assoc, List.append_assoc, List.singleton_append]
  | _ => trivial

end Parser

/-! ## Indices into a text -/

/-- A place in a text, by the index of its token. -/
structure Place (source : String) where
  index : Nat

namespace Place

variable {source other : String} {n : Nat}

/-- A token before the end of a text stands before its end token. -/
theorem lt_size {i : Nat} (h : (tokenAt source i).kind ≠ .eof) :
    0 < (TokenStream.ofSource source).size - i := by
  rw [← TokenStream.current_skip] at h
  have hpos := TokenSupply.size_pos ((TokenStream.ofSource source).skip i) h
  exact Nat.lt_of_lt_of_le hpos (Nat.le_of_eq List.length_drop)

instance : TokenSupply (Place source) where
  current p := tokenAt source p.index
  upcoming p := tokenAt source (p.index + 1)
  advance p := ⟨p.index + 1⟩
  size p := (TokenStream.ofSource source).size - p.index
  upcoming_eq _ := rfl
  size_advance p := Nat.sub_add_eq _ p.index 1
  size_pos _ := lt_size

/-- The window of a text at a place, with the tokens that have been read there. -/
def metered (p : Place source) : Metered Window :=
  ⟨advance^[p.index] (Window.ofSource source), p.index + 2⟩

/-- A text that is read token by token stands on the token at its index. -/
theorem current_metered (p : Place source) : current p.metered = tokenAt source p.index := by
  have hstream : ∀ i, (advance^[i] (Window.ofSource source)).toStream =
      (TokenStream.ofSource source).skip i := by
    intro i
    induction i with
    | zero => exact Window.toStream_ofCursor _
    | succ i ih =>
      rw [Function.iterate_succ_apply', ← TokenStream.advance_skip, ← ih]
      exact Window.toStream_advance _
  rw [← TokenStream.current_skip, ← hstream]
  exact (Window.current_toStream _).symm

theorem advance_metered (p : Place source) : advance p.metered = (advance p).metered :=
  congrArg (Metered.mk · (p.index + 2 + 1)) (Function.iterate_succ_apply' _ _ _).symm

theorem upcoming_metered (p : Place source) :
    upcoming p.metered = tokenAt source (p.index + 1) := by
  rw [upcoming_eq, advance_metered, current_metered]
  rfl

/-- Indices stand for the places of their text. -/
theorem corresponds_metered : Corresponds (metered : Place source → Metered Window) id where
  current := current_metered
  advance := advance_metered
  kind _ := rfl
  literal _ := rfl

/-- The place with the same index in another text. -/
def inText (other : String) (p : Place source) : Place other := ⟨p.index⟩

/-- The first tokens of two texts are the same token by token. -/
theorem tokenAt_eq (hagree : (tokenize source).take n = (tokenize other).take n) {i : Nat}
    (hi : i < n) : tokenAt source i = tokenAt other i := by
  have hget : (tokenize source)[i]? = (tokenize other)[i]? := by
    rw [← List.getElem?_take_of_lt hi, hagree, List.getElem?_take_of_lt hi]
  cases hother : (tokenize other)[i]? with
  | some t =>
    rw [hother] at hget
    rw [tokenAt, tokenAt, List.getD_eq_getElem?_getD, List.getD_eq_getElem?_getD, hget, hother]
    rfl
  | none =>
    -- then the whole of both texts is among the tokens that agree
    rw [hother] at hget
    have hsource := List.getElem?_eq_none_iff.mp hget
    have hother := List.getElem?_eq_none_iff.mp hother
    rw [List.take_of_length_le (by omega), List.take_of_length_le (by omega)] at hagree
    simp only [tokenAt, hagree]

/-- As far as two texts have the same tokens, the indices into the one stand for the places of
the other. -/
theorem corresponds_inText (hagree : (tokenize source).take n = (tokenize other).take n) :
    CorrespondsWhile (fun p : Place source => p.index + 2 ≤ n)
      (fun p => (p.inText other).metered) id where
  back p hp := Nat.le_of_succ_le hp
  current p hp := by
    have hlt : p.index < n := by omega
    rw [current_metered]
    exact (tokenAt_eq hagree hlt).symm
  upcoming p hp := by
    have hlt : p.index + 1 < n := by omega
    rw [upcoming_metered]
    exact (tokenAt_eq hagree hlt).symm
  advance p _ := advance_metered (p.inText other)
  kind _ := rfl
  literal _ := rfl

end Place

namespace Parser

open Progress

/-- **Parsing a text is making rounds to its end.** -/
theorem exists_rounds_parse (source : String) : ∃ m q,
    rounds m (start (Metered.ofSource source)) = some q ∧ (current q.stream).kind = .eof ∧
      parse source = (⟨q.statements⟩, q.found) := by
  have hsupply : Corresponds (Metered.supply (σ := Window)) id :=
    ⟨fun _ => rfl, fun _ => rfl, fun _ => rfl, fun _ => rfl⟩
  have hmirrors := mirrors_program hsupply (Metered.ofSource source)
  have hrun := run_read (.statements .eof) (Metered.ofSource source)
  obtain ⟨m, hm⟩ := hrun.rounds rfl _ (start (Metered.ofSource source)) 0 rfl rfl
  refine ⟨m, _, hm, hrun.statements_end.elim id id, ?_⟩
  exact Prod.ext hmirrors.value hmirrors.found

/-- **A parser looks at no token that it has not read.**  If two texts have their first `n` tokens
in common and the parser of the one has read no more than these after `m` rounds, then the parser
of the other makes these rounds as well: it has read as many tokens, found the same statements and
the same diagnostics, and stands on the same tokens. -/
theorem rounds_agree (source other : String) (n m : Nat) (q : Progress (Metered Window))
    (hagree : (tokenize source).take n = (tokenize other).take n)
    (hq : rounds m (start (Metered.ofSource source)) = some q) (hread : q.stream.pulled ≤ n) :
    ∃ r, rounds m (start (Metered.ofSource other)) = some r ∧ r.statements = q.statements ∧
      r.found = q.found ∧ current r.stream = current q.stream ∧
      upcoming r.stream = upcoming q.stream ∧ r.stream.pulled = q.stream.pulled := by
  have hhere : Corresponds (Place.metered : Place source → Metered Window) id :=
    Place.corresponds_metered
  have hthere := Place.corresponds_inText hagree
  have hstart : start (Metered.ofSource source) = (start (Place.mk 0)).along Place.metered := rfl
  rw [hstart] at hq
  obtain ⟨p, hp, rfl⟩ := exists_rounds_of_along hhere hq
  have hindex : p.stream.index + 2 ≤ n := hread
  refine ⟨_, rounds_along hthere hp hindex, rfl, rfl, ?_, ?_, rfl⟩
  · exact (hthere.current _ hindex).trans (hhere.current _).symm
  · exact (hthere.upcoming _ hindex).trans (hhere.upcoming _).symm

/-- Two texts that differ behind the third token, after the round for their first. -/
theorem rounds_agree_third : ∃ q r, rounds 1 (start (Metered.ofSource "@ a b (")) = some q ∧
    rounds 1 (start (Metered.ofSource "@ a b )")) = some r ∧ q.stream.pulled = 3 ∧
      r.statements = q.statements ∧ r.found = [.noExpression .illegal] ∧
      current r.stream = current q.stream ∧ upcoming r.stream = upcoming q.stream := by
  have hagree : (tokenize "@ a b (").take 3 = (tokenize "@ a b )").take 3 := by decide +kernel
  have hkind : (current (Metered.ofSource "@ a b (")).kind = .illegal := by decide +kernel
  have hnext : (upcoming (Metered.ofSource "@ a b (")).kind = .ident := by decide +kernel
  have hmissing := Run.operand_missing (s := Metered.ofSource "@ a b (") (by rw [hkind]; rfl)
  have hrun := Run.statement_expression (by rw [hkind]; decide) (by rw [hkind]; decide)
    (.expressionStatement (.expression_missing hmissing) (by rw [hnext]; decide))
  have hend : (current (Metered.ofSource "@ a b (")).kind ≠ .eof := by rw [hkind]; decide
  have hq : rounds 1 (start (Metered.ofSource "@ a b (")) = some _ :=
    round_of_run (p := start (Metered.ofSource "@ a b (")) hend hrun
  obtain ⟨r, hr, hstatements, hfound, hcurrent, hupcoming, -⟩ :=
    rounds_agree _ _ 3 1 _ hagree hq (Nat.le_refl 3)
  refine ⟨_, r, hq, hr, rfl, hstatements, ?_, hcurrent, hupcoming⟩
  rw [hfound, hkind]
  rfl

end Parser
end MonkeyFrontend
