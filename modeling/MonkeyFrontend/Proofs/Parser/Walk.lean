import MonkeyFrontend.Proofs.Parser.Simulation

/-! # Readers walk over a text

A reader may be asked for anything, in any order and wherever it stands.  Whatever it is
asked for, it walks over the tokens of its text in order, sees two neighbouring ones and only
adds to its diagnostics (`Reader.walks`), and it cannot tell a text that is read token by
token from a list of tokens made in advance.
-/
namespace MonkeyFrontend

open TokenSupply

variable {σ τ : Type} [TokenSupply σ] [TokenSupply τ] {f : σ → τ}

/-! ## Two readers of the same tokens -/

/-- The outcome from a supply and one from the corresponding supply say the same, and end at
corresponding places. -/
structure Outcome.Mirrors {α : Type} (f : σ → τ) {s : σ} (o : Outcome α s)
    (o' : Outcome α (f s)) : Prop where
  value : o'.value = o.value
  found : o'.found = o.found
  stream : o'.stream = f o.stream

theorem Outcome.Mirrors.map {α β : Type} {s : σ} {o : Outcome α s} {o' : Outcome α (f s)}
    (h : o.Mirrors f o') (g : α → β) : (o.map g).Mirrors f (o'.map g) :=
  ⟨congrArg g h.value, h.found, h.stream⟩

/-- Reading a construct from corresponding supplies gives the same. -/
theorem Parser.mirrors_read (hf : Corresponds f id) (c : Construct) (s : σ) :
    (c.read s).Mirrors f (c.read (f s)) := by
  obtain ⟨_, heq⟩ := ((run_read c s).map_id hf).gives
  rw [heq]
  exact ⟨rfl, rfl, rfl⟩

/-- An expectation on corresponding supplies gives the same. -/
theorem mirrors_expect (hf : Corresponds f id) (k : Kind) (s : σ) :
    (expect k s).Mirrors f (expect k (f s)) := by
  by_cases h : (upcoming s).kind = k
  · rw [Parser.expect_of_eq h, Parser.expect_of_eq ((hf.upcoming_kind s).trans h)]
    exact ⟨rfl, rfl, hf.advance s⟩
  · have h' : (upcoming (f s)).kind ≠ k := by rwa [hf.upcoming_kind]
    rw [Parser.expect_of_ne h, Parser.expect_of_ne h', hf.upcoming_kind]
    exact ⟨rfl, rfl, rfl⟩

theorem mirrors_program (hf : Corresponds f id) (s : σ) :
    (Parser.program s).Mirrors f (Parser.program (f s)) :=
  (Parser.mirrors_read hf (.statements .eof) s).map Program.mk

/-- So does a number. -/
theorem mirrors_integer (hf : Corresponds f id) (s : σ) :
    (Parser.integer s).Mirrors f (Parser.integer (f s)) := by
  have hcurrent : current (f s) = current s := hf.current s
  unfold Parser.integer
  rw [hcurrent]
  split <;> exact ⟨rfl, rfl, rfl⟩

namespace Reader

/-- The reader that stands at the corresponding place. -/
def along (f : σ → τ) (r : Reader σ) : Reader τ := ⟨f r.stream, r.diagnostics⟩

theorem accept_along {α : Type} {r : Reader σ} {o : Outcome α r.stream}
    {o' : Outcome α (r.along f).stream} (h : o.Mirrors f o') (reply : α → Reply) :
    (r.along f).accept o' reply = ((r.accept o reply).1, (r.accept o reply).2.along f) := by
  rw [accept, h.value, h.found, h.stream]
  rfl

theorem acceptExpr_along {r : Reader σ} {o : Outcome (Option Expr) r.stream}
    {o' : Outcome (Option Expr) (r.along f).stream} (h : o.Mirrors f o') :
    (r.along f).acceptExpr o' = ((r.acceptExpr o).1, (r.acceptExpr o).2.along f) :=
  accept_along h _

theorem acceptStmt_along {r : Reader σ} {o : Outcome Stmt r.stream}
    {o' : Outcome Stmt (r.along f).stream} (h : o.Mirrors f o') :
    (r.along f).acceptStmt o' = ((r.acceptStmt o).1, (r.acceptStmt o).2.along f) :=
  accept_along h _

/-- A reader at the corresponding place answers the same. -/
theorem perform_along (hf : Corresponds f id) (r : Reader σ) (call : Call) :
    (r.along f).perform call = ((r.perform call).1, (r.perform call).2.along f) := by
  have hcurrent : current (f r.stream) = current r.stream := hf.current _
  have hupcoming : upcoming (f r.stream) = upcoming r.stream := hf.upcoming _
  cases call with
  | advance => exact congrArg (fun s => (Reply.nothing, Reader.mk s r.diagnostics)) (hf.advance _)
  | currentIs k => simp [perform, along, hcurrent]
  | upcomingIs k => simp [perform, along, hupcoming]
  | expect k => exact accept_along (r := r) (mirrors_expect hf k _) _
  | reportUnexpected k => simp [perform, accept, Outcome.report, along, hupcoming]
  | reportNoExpression k => rfl
  | currentPrecedence => simp [perform, along, hcurrent]
  | upcomingPrecedence => simp [perform, along, hupcoming]
  | program => exact accept_along (mirrors_program hf _) fun p => .tree (some (.program p))
  | statement => exact acceptStmt_along (Parser.mirrors_read hf .statement _)
  | letting => exact acceptStmt_along (Parser.mirrors_read hf .letting _)
  | returning => exact acceptStmt_along (Parser.mirrors_read hf .returning _)
  | expressionStatement => exact acceptStmt_along (Parser.mirrors_read hf .expressionStatement _)
  | block => exact acceptStmt_along ((Parser.mirrors_read hf .block _).map _)
  | value => exact acceptExpr_along (Parser.mirrors_read hf .value _)
  | expression p => exact acceptExpr_along (Parser.mirrors_read hf (.expression p) _)
  | identifier =>
    simp [perform, acceptExpr, accept, Parser.identifier, Outcome.pure, Outcome.map, along,
      hcurrent]
  | integer => exact acceptExpr_along (mirrors_integer hf _)
  | boolean =>
    simp [perform, acceptExpr, accept, Parser.boolean, Outcome.pure, Outcome.map, along,
      hcurrent]
  | unary => exact acceptExpr_along ((Parser.mirrors_read hf .unary _).map _)
  | binary left => exact acceptExpr_along ((Parser.mirrors_read hf (.binary left) _).map _)
  | grouped => exact acceptExpr_along (Parser.mirrors_read hf .grouped _)
  | conditional => exact acceptExpr_along (Parser.mirrors_read hf .conditional _)
  | function => exact acceptExpr_along (Parser.mirrors_read hf .function _)
  | parameters => exact accept_along (r := r) (Parser.mirrors_read hf .parameters _) _
  | diagnostics => rfl

/-- **Two readers of the same tokens cannot be told apart**, whatever they are asked. -/
theorem performAll_along (hf : Corresponds f id) (r : Reader σ) (calls : List Call) :
    (r.along f).performAll calls =
      ((r.performAll calls).1, (r.performAll calls).2.along f) := by
  induction calls generalizing r with
  | nil => rfl
  | cons call calls ih =>
    simp only [performAll]
    rw [perform_along hf, ih]

/-! ## What one answer changes -/

/-- What a reader has become: it stands no further back and has only added to its
diagnostics. -/
structure Grows (r r' : Reader σ) : Prop where
  ahead : Ahead r.stream r'.stream
  diagnostics : r.diagnostics <+: r'.diagnostics

theorem grows_refl (r : Reader σ) : r.Grows r := ⟨.refl _, List.prefix_rfl⟩

theorem grows_accept {α : Type} {r : Reader σ} {o : Outcome α r.stream}
    (h : Ahead r.stream o.stream) (reply : α → Reply) : r.Grows (r.accept o reply).2 :=
  ⟨h, List.prefix_append _ _⟩

theorem ahead_read (c : Parser.Construct) (s : σ) : Ahead s (c.read s).stream :=
  (Parser.run_read c s).ahead

theorem ahead_expect (k : Kind) (s : σ) : Ahead s (MonkeyFrontend.expect k s).stream := by
  by_cases h : (upcoming s).kind = k
  · rw [Parser.expect_of_eq h]
    exact .next s
  · rw [Parser.expect_of_ne h]
    exact .refl s

theorem ahead_integer (s : σ) : Ahead s (Parser.integer s).stream := by
  unfold Parser.integer
  split <;> exact .refl s

/-- No answer takes a reader back, and none takes a diagnostic from it. -/
theorem grows_perform (r : Reader σ) (call : Call) : r.Grows (r.perform call).2 := by
  cases call with
  | advance => exact ⟨.next _, List.prefix_rfl⟩
  | currentIs | upcomingIs | currentPrecedence | upcomingPrecedence | diagnostics =>
    exact grows_refl r
  | reportUnexpected | reportNoExpression | identifier | boolean =>
    exact grows_accept (.refl _) _
  | expect k => exact grows_accept (ahead_expect k _) _
  | integer => exact grows_accept (ahead_integer _) _
  | program =>
    exact grows_accept (o := Parser.program r.stream) (ahead_read (.statements .eof) _) _
  | statement => exact grows_accept (ahead_read .statement _) _
  | letting => exact grows_accept (ahead_read .letting _) _
  | returning => exact grows_accept (ahead_read .returning _) _
  | expressionStatement => exact grows_accept (ahead_read .expressionStatement _) _
  | block =>
    exact grows_accept (o := (Parser.block r.stream).map Stmt.block) (ahead_read .block _) _
  | value => exact grows_accept (ahead_read .value _) _
  | expression p => exact grows_accept (ahead_read (.expression p) _) _
  | unary => exact grows_accept (o := (Parser.unary r.stream).map some) (ahead_read .unary _) _
  | binary left =>
    exact grows_accept (o := (Parser.binary left r.stream).map some)
      (ahead_read (.binary left) _) _
  | grouped => exact grows_accept (ahead_read .grouped _) _
  | conditional => exact grows_accept (ahead_read .conditional _) _
  | function => exact grows_accept (ahead_read .function _) _
  | parameters => exact grows_accept (ahead_read .parameters _) _

/-- Behind a program there is only the end of the text. -/
theorem current_perform_program (r : Reader σ) :
    (current (r.perform .program).2.stream).kind = .eof :=
  (Parser.run_read (.statements .eof) r.stream).statements_end.elim id id

end Reader

/-! ## Places in a text -/

theorem tokenize_ne_nil (source : String) : tokenize source ≠ [] :=
  List.concat_ne_nil _ _

/-- The token behind `i` others in a text; behind the last one, the end token again. -/
def tokenAt (source : String) (i : Nat) : Token :=
  (tokenize source).getD i ((tokenize source).getLast (tokenize_ne_nil source))

namespace TokenStream

theorem skip_succ (s : TokenStream) (n : Nat) : s.skip (n + 1) = s.advance.skip n := by
  simp [skip, advance]

theorem advance_skip (s : TokenStream) (n : Nat) : (s.skip n).advance = s.skip (n + 1) := by
  simp [skip, advance, List.tail_drop]

theorem iterate_advance (s : TokenStream) (n : Nat) : advance^[n] s = s.skip n := by
  induction n generalizing s with
  | zero => rfl
  | succ n ih => rw [Function.iterate_succ_apply, ih, skip_succ]

/-- How far ahead a stream stands is how many tokens it lacks. -/
theorem eq_skip_of_ahead {s t : TokenStream} (h : Ahead s t) : t = s.skip (s.size - t.size) := by
  obtain ⟨n, rfl⟩ := h
  have hskip : TokenSupply.advance^[n] s = s.skip n := s.iterate_advance n
  rw [hskip]
  have hsize : (s.skip n).size = s.size - n := List.length_drop
  rw [hsize]
  by_cases hn : n ≤ s.size
  · rw [Nat.sub_sub_self hn]
  · have hdrop : s.ahead.drop n = s.ahead.drop (s.size - (s.size - n)) := by
      have hlength : s.ahead.length = s.size := rfl
      rw [List.drop_of_length_le (by omega), List.drop_of_length_le (by omega)]
    exact congrArg (TokenStream.mk · s.stop) hdrop

theorem ofCursor_skipTokens (c : Cursor) (n : Nat) :
    ofCursor (c.skipTokens n) = (ofCursor c).skip n := by
  induction n generalizing c with
  | zero => rfl
  | succ n ih =>
    have hnext : ofCursor c.nextToken.2 = (ofCursor c).advance := by
      have hwindow := (Window.ofCursor c).toStream_advance
      rw [Window.toStream_ofCursor] at hwindow
      rw [← hwindow, ofCursor_eq, ofCursor_eq c.nextToken.2.nextToken.2]
      rfl
    rw [Cursor.skipTokens, ih, hnext, skip_succ]

theorem current_skip (source : String) (i : Nat) :
    ((ofSource source).skip i).current = tokenAt source i := by
  have hlast : ∀ h, (tokenize source).getLast h = Token.eof (ofSource source).stop :=
    fun _ => List.getLast_concat
  rw [tokenAt, hlast, tokenize, toList, current, skip, List.getD_eq_getElem?_getD]
  by_cases hi : i < (ofSource source).ahead.length
  · rw [List.getElem?_append_left hi]
    simp [List.headD_eq_head?_getD, List.head?_drop]
  · have hle : (ofSource source).ahead.length ≤ i := Nat.le_of_not_lt hi
    rw [List.drop_of_length_le hle, List.getElem?_append_right hle]
    cases i - (ofSource source).ahead.length <;> rfl

end TokenStream

namespace Window

/-- A window corresponds to the stream of the tokens that it still has before it. -/
theorem corresponds : Corresponds toStream id where
  current := current_toStream
  advance w := (toStream_advance w).symm
  kind _ := rfl
  literal _ := rfl

end Window

namespace Reader

/-- The reader of a list of tokens made in advance, after the first `n` of them. -/
def ofTokens (source : String) (n : Nat) : Reader TokenStream :=
  ⟨(TokenStream.ofSource source).skip n, []⟩

theorem along_ofSource (source : String) (n : Nat) :
    (ofSource source n).along Window.toStream = ofTokens source n := by
  rw [along, ofSource, Window.toStream_ofCursor, TokenStream.ofCursor_skipTokens]
  rfl

/-- The reader after the first `m` of a number of calls. -/
def after (r : Reader σ) (calls : List Call) (m : Nat) : Reader σ :=
  (r.performAll (calls.take m)).2

theorem performAll_append (r : Reader σ) (calls later : List Call) :
    (r.performAll (calls ++ later)).2 = ((r.performAll calls).2.performAll later).2 := by
  induction calls generalizing r with
  | nil => rfl
  | cons call calls ih => exact ih _

theorem after_succ (r : Reader σ) (calls : List Call) (m : Nat) :
    r.after calls (m + 1) = ((r.after calls m).performAll calls[m]?.toList).2 := by
  rw [after, List.take_add_one, performAll_append, after]

/-- Between one call and the next a reader only grows. -/
theorem grows_after (r : Reader σ) (calls : List Call) (m : Nat) :
    (r.after calls m).Grows (r.after calls (m + 1)) := by
  rw [after_succ]
  cases calls[m]? with
  | none => exact grows_refl _
  | some call => exact grows_perform _ call

theorem ahead_after (r : Reader σ) (calls : List Call) (m : Nat) :
    Ahead r.stream (r.after calls m).stream := by
  induction m with
  | zero => exact .refl _
  | succ m ih => exact ih.trans (r.grows_after calls m).ahead

/-- How many tokens of a text its reader has behind it after the first `m` of a number of
calls. -/
def index (source : String) (n : Nat) (calls : List Call) (m : Nat) : Nat :=
  n + ((ofTokens source n).stream.size - ((ofTokens source n).after calls m).stream.size)

theorem index_zero (source : String) (n : Nat) (calls : List Call) :
    index source n calls 0 = n := by
  rw [index, after, List.take_zero, performAll, Nat.sub_self, Nat.add_zero]

theorem index_le_succ (source : String) (n : Nat) (calls : List Call) (m : Nat) :
    index source n calls m ≤ index source n calls (m + 1) := by
  obtain ⟨k, hk⟩ := ((ofTokens source n).grows_after calls m).ahead
  have hle : ((ofTokens source n).after calls (m + 1)).stream.size ≤
      ((ofTokens source n).after calls m).stream.size := by
    have hskip : TokenSupply.advance^[k] ((ofTokens source n).after calls m).stream = _ :=
      TokenStream.iterate_advance _ k
    rw [hk, hskip]
    exact Nat.le_trans (Nat.le_of_eq List.length_drop) (Nat.sub_le _ _)
  rw [index, index]
  omega

/-- The reader of the tokens made in advance stands at its index. -/
theorem stream_after_ofTokens (source : String) (n : Nat) (calls : List Call) (m : Nat) :
    ((ofTokens source n).after calls m).stream =
      (TokenStream.ofSource source).skip (index source n calls m) := by
  have hskip := TokenStream.eq_skip_of_ahead ((ofTokens source n).ahead_after calls m)
  rw [index]
  generalize (ofTokens source n).stream.size - ((ofTokens source n).after calls m).stream.size = k
    at *
  rw [hskip]
  simp [ofTokens, TokenStream.skip, List.drop_drop]

/-- The reader of a text answers as the reader of the tokens made in advance. -/
theorem performAll_ofTokens (source : String) (n : Nat) (calls : List Call) :
    (ofTokens source n).performAll calls =
      (((ofSource source n).performAll calls).1,
        ((ofSource source n).performAll calls).2.along Window.toStream) := by
  rw [← along_ofSource, performAll_along Window.corresponds]

/-- The reader of a text stands at its index. -/
theorem toStream_after_ofSource (source : String) (n : Nat) (calls : List Call) (m : Nat) :
    ((ofSource source n).after calls m).stream.toStream =
      (TokenStream.ofSource source).skip (index source n calls m) := by
  rw [← stream_after_ofTokens, after, after, performAll_ofTokens]
  rfl

/-- **A walk over a text.**  After each call of a sequence the reader of a text sees the
tokens at some index and behind it.  The indices do not decrease, nothing is taken from the
diagnostics, the end is reached with a whole program, and each construct can be read to its
end from wherever the reader stands.  The reader of the tokens made in advance stands at the
same index. -/
structure Walk (source : String) (n : Nat) (calls : List Call) (index : Nat → Nat) : Prop where
  start : index 0 = n
  forward : ∀ m, index m ≤ index (m + 1)
  current : ∀ m, current ((ofSource source n).after calls m).stream = tokenAt source (index m)
  upcoming : ∀ m,
    upcoming ((ofSource source n).after calls m).stream = tokenAt source (index m + 1)
  diagnostics : ∀ m, ((ofSource source n).after calls m).diagnostics <+:
    ((ofSource source n).after calls (m + 1)).diagnostics
  program_end : ∀ m, calls[m]? = some .program →
    (TokenSupply.current ((ofSource source n).after calls (m + 1)).stream).kind = .eof
  finite : ∀ m (c : Parser.Construct),
    ∃ v ds t, Parser.Run c ((ofSource source n).after calls m).stream v ds t
  tokens : ∀ m, ((ofTokens source n).after calls m).stream =
    (TokenStream.ofSource source).skip (index m)

/-- **Every reader walks over its text**, whatever it is asked, and answers as the reader of
the tokens made in advance. -/
theorem walks (source : String) (n : Nat) (calls : List Call) :
    (∃ index, Walk source n calls index) ∧
      ((ofSource source n).performAll calls).1 = ((ofTokens source n).performAll calls).1 ∧
      ((ofSource source n).performAll calls).2.diagnostics =
        ((ofTokens source n).performAll calls).2.diagnostics := by
  refine ⟨⟨index source n calls, ?_⟩, by rw [performAll_ofTokens], by
    rw [performAll_ofTokens]
    rfl⟩
  refine ⟨index_zero _ _ _, index_le_succ _ _ _, fun m => ?_, fun m => ?_,
    fun m => ((ofSource source n).grows_after calls m).diagnostics, fun m hm => ?_,
    fun m c => Parser.exists_run c _, stream_after_ofTokens _ _ _⟩
  · rw [← TokenStream.current_skip, ← toStream_after_ofSource]
    exact (Window.current_toStream _).symm
  · rw [← TokenStream.current_skip, ← TokenStream.advance_skip, ← toStream_after_ofSource,
      ← Window.toStream_advance]
    exact (Window.current_toStream (Window.advance _)).symm
  · rw [after_succ, hm]
    exact current_perform_program _

end Reader
end MonkeyFrontend
