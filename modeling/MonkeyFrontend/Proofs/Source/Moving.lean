import MonkeyFrontend.Proofs.Source.Joining
import MonkeyFrontend.Source.Move
import MonkeyFrontend.Token.Window

/-! # Moving a cursor about

A cursor may be asked for whatever one likes, in any order; so it may come to stand in the
middle of a word, of a number, of an operator or of a gap.  Every answer moves it over so many
characters (`Cursor.exists_skip`).  Hence it always stands between two parts of its text
(`Cursor.Splits`), and what holds of such a place holds after every run (`Cursor.Steady`).

If only tokens are asked for, none is lost: those that were given out, and those still ahead, are
all tokens of the text (`Cursor.taken_performAll`).
-/
namespace MonkeyFrontend

/-! ## Requests for tokens -/

/-- Whether a request asks for tokens. -/
def Move.asksTokens : Move → Bool
  | .nextToken | .allTokens | .takeTokens _ => true
  | _ => false

/-- The tokens in an answer. -/
def Sight.shown : Sight → List Token
  | .token t => [t]
  | .tokens ts => ts
  | _ => []

/-- The tokens in some answers, one behind the other, without end tokens. -/
def taken (sights : List Sight) : List Token :=
  (sights.flatMap Sight.shown).filter fun t => t.kind ≠ .eof

theorem taken_cons (sight : Sight) (sights : List Sight) :
    taken (sight :: sights) = taken [sight] ++ taken sights := by
  simp [taken]

theorem taken_tokens {ts : List Token} (h : ∀ t ∈ ts, t.kind ≠ .eof) :
    taken [.tokens ts] = ts := by
  simpa [taken, Sight.shown] using h

namespace Cursor

/-! ## Every move is a skip -/

theorem skip_skip (c : Cursor) (m n : Nat) : (c.skip m).skip n = c.skip (m + n) := by
  simp [skip, List.take_add, Position.advance_append, Nat.add_assoc]

theorem exists_skip_nextToken (c : Cursor) : ∃ n, c.nextToken.2 = c.skip n := by
  cases hread : c.token? with
  | none =>
    rw [nextToken_of_none hread]
    exact ⟨_, rfl⟩
  | some read =>
    obtain ⟨t, d⟩ := read
    rw [nextToken_of_some hread]
    unfold token? at hread
    split at hread
    · simp at hread
    · obtain ⟨-, rfl⟩ := Prod.mk.inj (Option.some.inj hread)
      exact ⟨_, skip_skip c _ _⟩

/-- Behind the next token, a cursor has been moved as well. -/
theorem exists_skip_of_token? {c d e : Cursor} {t : Token} (h : c.token? = some (t, d))
    (hlater : ∃ n, e = d.skip n) : ∃ n, e = c.skip n := by
  obtain ⟨n, rfl⟩ := hlater
  obtain ⟨m, hm⟩ := c.exists_skip_nextToken
  rw [nextToken_of_some h] at hm
  obtain rfl : d = c.skip m := hm
  exact ⟨m + n, skip_skip c m n⟩

theorem exists_skip_takeTokens (n : Nat) (c : Cursor) : ∃ k, (c.takeTokens n).2 = c.skip k := by
  induction n generalizing c with
  | zero => exact ⟨0, (skip_zero c).symm⟩
  | succ n ih =>
    cases hread : c.token? with
    | none =>
      rw [takeTokens_of_none hread]
      exact ⟨_, rfl⟩
    | some read =>
      obtain ⟨t, d⟩ := read
      rw [takeTokens_of_some hread]
      exact exists_skip_of_token? hread (ih d)

/-- Taking all tokens is taking enough of them. -/
theorem exists_takeTokens (c : Cursor) : ∃ n, c.tokens = c.takeTokens n := by
  induction c using tokens.induct with
  | case1 c hnone => exact ⟨1, by rw [tokens_of_none hnone, takeTokens_of_none hnone]⟩
  | case2 c t d hread ih =>
    obtain ⟨n, hn⟩ := ih
    exact ⟨n + 1, by rw [tokens_of_some hread, takeTokens_of_some hread, hn]⟩

/-- **Every answer moves a cursor over so many characters.** -/
theorem exists_skip (c : Cursor) (move : Move) : ∃ n, (c.perform move).2 = c.skip n := by
  cases move with
  | nextToken => exact c.exists_skip_nextToken
  | allTokens =>
    obtain ⟨n, hn⟩ := c.exists_takeTokens
    rw [perform, hn]
    exact c.exists_skip_takeTokens n
  | takeTokens n => exact c.exists_skip_takeTokens n
  | skipGap | readWhile | readChar => exact ⟨_, rfl⟩
  | seeUpcoming | seeEnd => exact ⟨0, (skip_zero c).symm⟩

/-! ## Where a cursor can stand -/

/-- A cursor stands between two parts of a text. -/
def Splits (c : Cursor) (text : List Char) : Prop :=
  ∃ front rest, text = front ++ rest ∧ c = between front rest

theorem between_skip (front rest : List Char) (n : Nat) :
    (between front rest).skip n = between (front ++ rest.take n) (rest.drop n) := by
  simp [skip, between, Position.advance_behind]

theorem Splits.skip {c : Cursor} {text : List Char} (h : c.Splits text) (n : Nat) :
    (c.skip n).Splits text := by
  obtain ⟨front, rest, rfl, rfl⟩ := h
  refine ⟨front ++ rest.take n, rest.drop n, ?_, between_skip front rest n⟩
  rw [List.append_assoc, List.take_append_drop]

theorem Splits.perform {c : Cursor} {text : List Char} (h : c.Splits text) (move : Move) :
    (c.perform move).2.Splits text := by
  obtain ⟨n, hn⟩ := c.exists_skip move
  rw [hn]
  exact h.skip n

/-- **Whatever is asked for, a cursor stands between two parts of its text.** -/
theorem Splits.performAll {c : Cursor} {text : List Char} (h : c.Splits text)
    (moves : List Move) : (c.performAll moves).2.Splits text := by
  induction moves generalizing c with
  | nil => exact h
  | cons move moves ih => exact ih (h.perform move)

end Cursor

namespace TokenStream

theorem head?_toList (s : TokenStream) : s.toList.head? = some s.current := by
  obtain ⟨ahead, stop⟩ := s
  cases ahead <;> rfl

theorem current_translate (origin : Position) (s : TokenStream) :
    (s.translate origin).current = Token.translate origin s.current := by
  obtain ⟨ahead, stop⟩ := s
  cases ahead <;> rfl

/-- The stream ahead of a cursor stands on the cursor's next token. -/
theorem current_ofCursor (c : Cursor) : (ofCursor c).current = c.nextToken.1 := by
  rw [← Window.toStream_ofCursor, Window.current_toStream]
  rfl

/-- **From any place on, the tokens are those of the rest of the text**, counted on from there. -/
theorem ofCursor_between (front rest : List Char) :
    ofCursor (.between front rest) =
      (ofSource (String.ofList rest)).translate (.behind front) := by
  have hmoved := (cuts_ofSource (String.ofList rest)).translate front
  rw [List.append_nil, String.toList_ofList] at hmoved
  exact hmoved.ofCursor

end TokenStream

namespace Cursor

/-- **What holds of a cursor wherever it stands** in a text, also in the middle of a token. -/
structure Steady (c : Cursor) (text : List Char) : Prop where
  /-- It stands in the text or at its end. -/
  offset_le : c.offset ≤ text.length
  /-- The character ahead is that of the text. -/
  current : c.current? = text[c.offset]?
  /-- Lines are counted by the line ends behind. -/
  line : c.position.line = 1 + (text.take c.offset).count '\n'
  /-- Columns are counted from the last line end. -/
  column : c.position.column =
    1 + ((text.take c.offset).reverse.takeWhile (· ≠ '\n')).length
  /-- It never goes back. -/
  forward (move : Move) : c.offset ≤ (c.perform move).2.offset
  /-- Looking ahead changes nothing. -/
  upcoming : c.perform .seeUpcoming = (.character text[c.offset + 1]?, c)
  /-- Nor does looking for the end. -/
  ended : c.perform .seeEnd = (.truth (c.offset = text.length), c)
  /-- The next token is the first of the rest of the text, counted on from here. -/
  next : (tokenize (String.ofList (text.drop c.offset))).head?.map (.translate c.position) =
    some c.nextToken.1
  /-- At the end of the text it stays. -/
  stay (h : c.offset = text.length) (move : Move) : (c.perform move).2 = c
  /-- The end token comes there again and again. -/
  last (h : c.offset = text.length) : c.nextToken.1 = Token.eof (.behind text)

/-! ### The two parts by their lengths -/

theorem take_offset (front rest : List Char) :
    (front ++ rest).take (between front rest).offset = front := List.take_left

theorem drop_offset (front rest : List Char) :
    (front ++ rest).drop (between front rest).offset = rest := List.drop_left

theorem getElem?_offset (front rest : List Char) (n : Nat) :
    (front ++ rest)[(between front rest).offset + n]? = rest[n]? := by
  rw [between, List.getElem?_append_right (Nat.le_add_right _ _), Nat.add_sub_cancel_left]

theorem offset_eq_length_iff (front rest : List Char) :
    (between front rest).offset = (front ++ rest).length ↔ rest = [] := by
  rw [between, List.length_append, Nat.left_eq_add, List.length_eq_zero_iff]

/-- **A cursor between two parts of a text.** -/
theorem steady_between (front rest : List Char) :
    (between front rest).Steady (front ++ rest) where
  offset_le := (List.prefix_append front rest).length_le
  current := List.head?_eq_getElem?.trans (getElem?_offset front rest 0).symm
  line := by
    rw [take_offset]
    rfl
  column := by
    rw [take_offset]
    rfl
  forward move := by
    obtain ⟨n, hn⟩ := (between front rest).exists_skip move
    rw [hn]
    exact Nat.le_add_right _ _
  upcoming := by
    have hsecond : (between front rest).upcoming? = rest[1]? := by
      cases rest with
      | nil => rfl
      | cons c rest => exact List.head?_eq_getElem?
    rw [getElem?_offset, ← hsecond]
    rfl
  ended := by
    have hend : (between front rest).atEnd =
        decide ((between front rest).offset = (front ++ rest).length) := by
      rw [Bool.eq_iff_iff, decide_eq_true_iff, offset_eq_length_iff]
      exact List.isEmpty_iff
    rw [← hend]
    rfl
  next := by
    rw [drop_offset, ← TokenStream.current_ofCursor, TokenStream.ofCursor_between,
      TokenStream.current_translate, tokenize, TokenStream.head?_toList]
    rfl
  stay hend move := by
    obtain rfl := (offset_eq_length_iff front rest).mp hend
    obtain ⟨n, hn⟩ := (between front []).exists_skip move
    rw [hn, between_skip, List.take_nil, List.drop_nil, List.append_nil]
  last hend := by
    obtain rfl := (offset_eq_length_iff front rest).mp hend
    obtain ⟨hnone, hstop⟩ := @token?_of_gap front [] (List.forall_mem_nil _)
    rw [nextToken_of_none hnone, hstop]

theorem Splits.steady {c : Cursor} {text : List Char} (h : c.Splits text) : c.Steady text := by
  obtain ⟨front, rest, rfl, rfl⟩ := h
  exact steady_between front rest

/-! ## Tokens are taken in order -/

theorem kind_ne_eof_of_mem_takeTokens {n : Nat} {c : Cursor} {t : Token}
    (h : t ∈ (c.takeTokens n).1) : t.kind ≠ .eof := by
  induction n generalizing c with
  | zero => contradiction
  | succ n ih =>
    cases hread : c.token? with
    | none =>
      rw [takeTokens_of_none hread] at h
      contradiction
    | some read =>
      obtain ⟨u, d⟩ := read
      rw [takeTokens_of_some hread] at h
      rcases List.mem_cons.mp h with rfl | hlater
      · exact kind_ne_eof_of_token? hread
      · exact ih hlater

/-- Behind a gap at the end of a text, a cursor has the same tokens ahead: none. -/
theorem ofCursor_skipGap {c : Cursor} (h : c.token? = none) :
    TokenStream.ofCursor c.skipGap = TokenStream.ofCursor c := by
  rw [TokenStream.ofCursor_eq c, nextToken_of_none h, TokenStream.push_eof rfl]

/-- The tokens taken are those that are no longer ahead. -/
theorem takeTokens_append (n : Nat) (c : Cursor) :
    (c.takeTokens n).1 ++ (TokenStream.ofCursor (c.takeTokens n).2).toList =
      (TokenStream.ofCursor c).toList := by
  induction n generalizing c with
  | zero => rfl
  | succ n ih =>
    cases hread : c.token? with
    | none =>
      rw [takeTokens_of_none hread, ofCursor_skipGap hread]
      rfl
    | some read =>
      obtain ⟨t, d⟩ := read
      rw [takeTokens_of_some hread, TokenStream.ofCursor_of_some hread, List.cons_append, ih d]
      rfl

/-- **One request for tokens loses none.** -/
theorem taken_perform (c : Cursor) {move : Move} (hmove : move.asksTokens) :
    taken [(c.perform move).1] ++ (TokenStream.ofCursor (c.perform move).2).toList =
      (TokenStream.ofCursor c).toList := by
  have hsome : ∀ n, taken [.tokens (c.takeTokens n).1] ++
      (TokenStream.ofCursor (c.takeTokens n).2).toList = (TokenStream.ofCursor c).toList := by
    intro n
    rw [taken_tokens fun t ht => kind_ne_eof_of_mem_takeTokens ht]
    exact takeTokens_append n c
  cases move with
  | nextToken =>
    cases hread : c.token? with
    | none =>
      rw [perform, nextToken_of_none hread, ofCursor_skipGap hread]
      rfl
    | some read =>
      obtain ⟨t, d⟩ := read
      have hone : taken [.token t] = [t] :=
        taken_tokens (List.forall_mem_singleton.mpr (kind_ne_eof_of_token? hread))
      rw [perform, nextToken_of_some hread, TokenStream.ofCursor_of_some hread, hone]
      rfl
  | takeTokens n => exact hsome n
  | allTokens =>
    obtain ⟨n, hn⟩ := c.exists_takeTokens
    rw [perform, hn]
    exact hsome n
  | skipGap | readWhile | readChar | seeUpcoming | seeEnd => contradiction

/-- **Requests for tokens lose none**, in any order. -/
theorem taken_performAll (c : Cursor) {moves : List Move}
    (hmoves : ∀ move ∈ moves, move.asksTokens) :
    taken (c.performAll moves).1 ++ (TokenStream.ofCursor (c.performAll moves).2).toList =
      (TokenStream.ofCursor c).toList := by
  induction moves generalizing c with
  | nil => rfl
  | cons move moves ih =>
    obtain ⟨hmove, hlater⟩ := List.forall_mem_cons.mp hmoves
    rw [performAll, taken_cons, List.append_assoc, ih _ hlater, taken_perform c hmove]

/-- The end of the text is reached behind all tokens. -/
theorem nextToken_tokens (c : Cursor) :
    c.tokens.2.nextToken.1 = Token.eof c.tokens.2.position := by
  induction c using tokens.induct with
  | case1 c hnone =>
    have hstay := nextToken_stay (token?_eq_none_iff.mp hnone)
    rw [nextToken_of_none hnone] at hstay
    rw [tokens_of_none hnone]
    exact congrArg Prod.fst hstay
  | case2 c t d hread ih =>
    rw [tokens_of_some hread]
    exact ih

/-- **Wherever a cursor comes to stand**, after any requests, what it shows and reads next is
given by its place in the text alone.  If only tokens were asked for, those it gave out, those
still ahead and the end token are the tokens of the text. -/
theorem steady_performAll (source : String) (moves : List Move) :
    let run := (ofSource source).performAll moves
    run.2.Steady source.toList ∧
      ((∀ move ∈ moves, move.asksTokens) →
        taken run.1 ++ run.2.tokens.1 ++ [run.2.tokens.2.nextToken.1] = tokenize source) := by
  intro run
  refine ⟨?_, fun hmoves => ?_⟩
  · have hstart : (ofSource source).Splits source.toList :=
      ⟨[], source.toList, rfl, ofSource_eq source⟩
    exact (hstart.performAll moves).steady
  · rw [nextToken_tokens, List.append_assoc]
    exact taken_performAll (ofSource source) hmoves

/-- After a name, at most one token is taken: it is a whole operator of two characters. -/
theorem steady_performAll_equals :
    let moves := [.nextToken, .takeTokens 1]
    let run := (ofSource "a==b").performAll moves
    (∀ move ∈ moves, move.asksTokens) ∧ run.2.Steady "a==b".toList ∧
      taken run.1 = [⟨.ident, "a", ⟨1, 1⟩⟩, ⟨.eq, "==", ⟨1, 2⟩⟩] ∧
        taken run.1 ++ run.2.tokens.1 ++ [run.2.tokens.2.nextToken.1] = tokenize "a==b" := by
  intro moves run
  have hmoves : ∀ move ∈ moves, move.asksTokens := by decide
  obtain ⟨hsteady, htaken⟩ := steady_performAll "a==b" moves
  exact ⟨hmoves, hsteady, by decide, htaken hmoves⟩

end Cursor
end MonkeyFrontend
