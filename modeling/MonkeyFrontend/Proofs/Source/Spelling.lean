import Mathlib.Data.Char
import Mathlib.Data.List.TakeWhile
import MonkeyFrontend.Source.Cursor

/-! # The spelling of tokens

Which texts spell a token of which kind, said without the scanner, and where a token must
stop.  The scanner takes the one piece at the head of a text that spells a token and stops
(`lexeme_spells`, `lexeme_of_spells`).
-/
namespace MonkeyFrontend

/-- The operators and delimiters, with the kind of each. -/
def Kind.symbols : List (String × Kind) :=
  [("=", assign), ("+", plus), ("-", minus), ("!", bang), ("*", asterisk), ("/", slash),
    ("<", lt), (">", gt), ("==", eq), ("!=", notEq), (",", comma), (";", semicolon),
    ("(", lparen), (")", rparen), ("\x7b", lbrace), ("\x7d", rbrace)]

/-- **The kind that a text determines**: a keyword by its word, any other run of letters as a
name, a run of digits as a number, an operator or delimiter by its text, and any other
character by itself as illegal. -/
inductive Spells : Kind → String → Prop where
  | keyword {k w} : (w, k) ∈ Kind.keywords → Spells k w
  | name {w} : w ≠ "" → (∀ c ∈ w.toList, isLetter c) → (∀ k, (w, k) ∉ Kind.keywords) →
      Spells .ident w
  | number {w} : w ≠ "" → (∀ c ∈ w.toList, isDigit c) → Spells .int w
  | symbol {k w} : (w, k) ∈ Kind.symbols → Spells k w
  | other {c} : ¬ isGap c → ¬ isLetter c → ¬ isDigit c →
      (∀ k, (String.singleton c, k) ∉ Kind.symbols) → Spells .illegal (String.singleton c)

/-- **Where a token stops**: no letter directly follows a run of letters, no digit a run of
digits, and no equals sign the tokens `=` and `!`. -/
structure Stops (w : String) (rest : List Char) : Prop where
  letters : (∀ c ∈ w.toList, isLetter c) → ∀ c ∈ rest.head?, ¬ isLetter c
  digits : (∀ c ∈ w.toList, isDigit c) → ∀ c ∈ rest.head?, ¬ isDigit c
  symbol : w = "=" ∨ w = "!" → rest.head? ≠ some '='

/-! ## Characters -/

theorem not_isLetter_of_isDigit {c : Char} (h : isDigit c) : ¬ isLetter c := by
  simp only [isDigit, isLetter, Bool.and_eq_true, Bool.or_eq_true, decide_eq_true_eq,
    Char.le_def, UInt32.le_iff_toNat_le] at *
  rintro ((h' | h') | rfl) <;> simp at * <;> omega

theorem not_isGap_of_isLetter {c : Char} (h : isLetter c) : ¬ isGap c := by
  simp only [isGap, Bool.or_eq_true, decide_eq_true_eq]
  rintro (((rfl | rfl) | rfl) | rfl) <;> exact absurd h (by decide)

theorem not_isGap_of_isDigit {c : Char} (h : isDigit c) : ¬ isGap c := by
  simp only [isGap, Bool.or_eq_true, decide_eq_true_eq]
  rintro (((rfl | rfl) | rfl) | rfl) <;> exact absurd h (by decide)

/-- The characters of a run that no further one follows are the longest run. -/
theorem takeWhile_run {p : Char → Bool} {w rest : List Char} (hw : ∀ c ∈ w, p c)
    (hrest : ∀ c ∈ rest.head?, ¬ p c) : (w ++ rest).takeWhile p = w := by
  rw [List.takeWhile_append_of_pos hw]
  cases rest with
  | nil => simp
  | cons c rest => simp [hrest c rfl]

/-- No further character of a run comes behind the longest one. -/
theorem not_of_mem_head?_dropWhile {p : Char → Bool} {l : List Char} :
    ∀ c ∈ (l.dropWhile p).head?, ¬ p c := by
  intro c hc
  have hhead := List.head?_dropWhile_not p l
  rw [hc] at hhead
  simpa using hhead

/-! ## Words, numbers and symbols at the head of a text -/

theorem ofWord_of_mem {w : String} {k : Kind} (h : (w, k) ∈ Kind.keywords) :
    Kind.ofWord w = k := by
  simp only [Kind.keywords, List.mem_cons, Prod.mk.injEq, List.not_mem_nil, or_false] at h
  rcases h with ⟨rfl, rfl⟩ | ⟨rfl, rfl⟩ | ⟨rfl, rfl⟩ | ⟨rfl, rfl⟩ | ⟨rfl, rfl⟩ | ⟨rfl, rfl⟩ |
    ⟨rfl, rfl⟩ <;> decide

/-- A keyword is a run of letters. -/
theorem letters_of_keyword {w : String} {k : Kind} (h : (w, k) ∈ Kind.keywords) :
    w ≠ "" ∧ ∀ c ∈ w.toList, isLetter c := by
  have hall : ∀ p ∈ Kind.keywords, p.1 ≠ "" ∧ ∀ c ∈ p.1.toList, isLetter c := by
    simp [Kind.keywords, isLetter]
  exact hall _ h

theorem ofWord_of_not_mem {w : String} (h : ∀ k, (w, k) ∉ Kind.keywords) :
    Kind.ofWord w = .ident := by
  have hnone : Kind.keywords.lookup w = none := by
    rw [List.lookup_eq_none_iff]
    intro p hp
    have hne : w ≠ p.1 := fun he => h p.2 (he ▸ hp)
    simpa using hne
  rw [Kind.ofWord, hnone]
  rfl

/-- A word spells its keyword or a name. -/
theorem spells_ofWord {w : String} (hne : w ≠ "") (hw : ∀ c ∈ w.toList, isLetter c) :
    Spells (Kind.ofWord w) w := by
  by_cases h : ∃ k, (w, k) ∈ Kind.keywords
  · obtain ⟨k, hk⟩ := h
    rw [ofWord_of_mem hk]
    exact .keyword hk
  · have hnot : ∀ k, (w, k) ∉ Kind.keywords := fun k hk => h ⟨k, hk⟩
    rw [ofWord_of_not_mem hnot]
    exact .name hne hw hnot

/-! ## The scanner by what stands ahead -/

theorem lexeme_of_letter {c : Char} (h : isLetter c) (rest : List Char) :
    lexeme c rest = (Kind.ofWord (String.ofList ((c :: rest).takeWhile isLetter)),
      (c :: rest).takeWhile isLetter) := by
  rw [List.takeWhile_cons_of_pos h]
  unfold lexeme
  rw [if_pos h]

theorem lexeme_of_digit {c : Char} (h : isDigit c) (rest : List Char) :
    lexeme c rest = (.int, (c :: rest).takeWhile isDigit) := by
  have hl : ¬ isLetter c := not_isLetter_of_isDigit h
  rw [List.takeWhile_cons_of_pos h]
  unfold lexeme
  rw [if_neg hl, if_pos h]

theorem lexeme_of_doubled {c : Char} {k : Kind} (h : Kind.ofDoubled? c = some k)
    (rest : List Char) : lexeme c ('=' :: rest) = (k, [c, '=']) := by
  have hc : c = '=' ∨ c = '!' := by
    unfold Kind.ofDoubled? at h
    split at h <;> simp_all
  have hnot : ¬ isLetter c ∧ ¬ isDigit c := by rcases hc with rfl | rfl <;> decide
  unfold lexeme
  rw [if_neg hnot.1, if_neg hnot.2]
  simp only [h]

theorem lexeme_of_single {c : Char} {rest : List Char} (hl : ¬ isLetter c) (hd : ¬ isDigit c)
    (h : Kind.ofDoubled? c = none ∨ rest.head? ≠ some '=') :
    lexeme c rest = (Kind.ofSymbol c, [c]) := by
  unfold lexeme
  rw [if_neg hl, if_neg hd]
  split
  · simp_all
  · rfl

/-! ## Symbols -/

theorem ofSymbol_mem {c : Char} (h : Kind.ofSymbol c ≠ .illegal) :
    (String.singleton c, Kind.ofSymbol c) ∈ Kind.symbols := by
  revert h
  unfold Kind.ofSymbol
  split <;> intro h
  case h_15 => exact absurd rfl h
  all_goals decide

theorem ofSymbol_of_mem {c : Char} {k : Kind} (h : (String.singleton c, k) ∈ Kind.symbols) :
    Kind.ofSymbol c = k := by
  have hall : ∀ p ∈ Kind.symbols,
      p.1.toList.head?.map Kind.ofSymbol = some p.2 ∨ p.1.toList.length = 2 := by decide
  simpa using hall _ h

/-- Only two characters form an operator with an equals sign behind them. -/
theorem ofDoubled?_eq_none_or (c : Char) : Kind.ofDoubled? c = none ∨ c = '=' ∨ c = '!' := by
  unfold Kind.ofDoubled?
  split <;> simp

theorem ofDoubled?_mem {c : Char} {k : Kind} (h : Kind.ofDoubled? c = some k) :
    (String.ofList [c, '='], k) ∈ Kind.symbols := by
  unfold Kind.ofDoubled? at h
  split at h
  · obtain rfl := Option.some.inj h
    decide
  · obtain rfl := Option.some.inj h
    decide
  · contradiction

/-- A symbol is a character that stands for itself, or one with an equals sign behind it. -/
theorem symbol_cases {w : String} {k : Kind} (h : (w, k) ∈ Kind.symbols) :
    ∃ c, ¬ isLetter c ∧ ¬ isDigit c ∧ (w.toList = [c] ∧ Kind.ofSymbol c = k ∨
      w.toList = [c, '='] ∧ Kind.ofDoubled? c = some k) := by
  have hall : ∀ p ∈ Kind.symbols, ∃ c ∈ p.1.toList, ¬ isLetter c ∧ ¬ isDigit c ∧
      (p.1.toList = [c] ∧ Kind.ofSymbol c = p.2 ∨
        p.1.toList = [c, '='] ∧ Kind.ofDoubled? c = some p.2) := by
    simp [Kind.symbols, isLetter, isDigit, Kind.ofSymbol, Kind.ofDoubled?]
  obtain ⟨c, _, hc⟩ := hall _ h
  exact ⟨c, hc⟩

/-- A character that stands for itself spells its kind. -/
theorem spells_ofSymbol {c : Char} (hg : ¬ isGap c) (hl : ¬ isLetter c) (hd : ¬ isDigit c) :
    Spells (Kind.ofSymbol c) (String.singleton c) := by
  by_cases h : Kind.ofSymbol c = .illegal
  · rw [h]
    refine .other hg hl hd fun k hk => ?_
    have hill : ∀ p ∈ Kind.symbols, p.2 ≠ .illegal := by decide
    exact hill _ hk ((ofSymbol_of_mem hk).symm.trans h)
  · exact .symbol (ofSymbol_mem h)

/-! ## The scanner takes the one piece that spells a token and stops -/

/-- Where a run of letters stops, a token stops. -/
theorem stops_word {w : String} {rest : List Char} (hne : w ≠ "")
    (hw : ∀ c ∈ w.toList, isLetter c) (h : ∀ c ∈ rest.head?, ¬ isLetter c) : Stops w rest where
  letters _ := h
  digits hd := by
    obtain ⟨c, hc⟩ := List.exists_mem_of_ne_nil w.toList (by simpa using hne)
    exact absurd (hw c hc) (not_isLetter_of_isDigit (hd c hc))
  symbol hsym := by
    rcases hsym with rfl | rfl
    · exact absurd (hw '=' (by simp)) (by decide)
    · exact absurd (hw '!' (by simp)) (by decide)

/-- Where a run of digits stops, a token stops. -/
theorem stops_number {w : String} {rest : List Char} (hne : w ≠ "")
    (hw : ∀ c ∈ w.toList, isDigit c) (h : ∀ c ∈ rest.head?, ¬ isDigit c) : Stops w rest where
  letters hl := by
    obtain ⟨c, hc⟩ := List.exists_mem_of_ne_nil w.toList (by simpa using hne)
    exact absurd (hl c hc) (not_isLetter_of_isDigit (hw c hc))
  digits _ := h
  symbol hsym := by
    rcases hsym with rfl | rfl
    · exact absurd (hw '=' (by simp)) (by decide)
    · exact absurd (hw '!' (by simp)) (by decide)

/-- A token with a character that is neither letter nor digit stops before everything but an
equals sign. -/
theorem stops_other {w : String} {rest : List Char} {c : Char} (hc : c ∈ w.toList)
    (hl : ¬ isLetter c) (hd : ¬ isDigit c) (h : w = "=" ∨ w = "!" → rest.head? ≠ some '=') :
    Stops w rest where
  letters hw := absurd (hw c hc) hl
  digits hw := absurd (hw c hc) hd
  symbol := h

/-- What the scanner takes spells a token, and the token stops there. -/
theorem lexeme_spells {c : Char} (hg : ¬ isGap c) (rest : List Char) :
    ∃ tail, c :: rest = (lexeme c rest).2 ++ tail ∧
      Spells (lexeme c rest).1 (String.ofList (lexeme c rest).2) ∧
      Stops (String.ofList (lexeme c rest).2) tail := by
  by_cases hl : isLetter c
  · have hall : ∀ x ∈ (String.ofList ((c :: rest).takeWhile isLetter)).toList, isLetter x := by
      rw [String.toList_ofList]
      exact fun x hx => List.mem_takeWhile_imp hx
    have hne : String.ofList ((c :: rest).takeWhile isLetter) ≠ "" := by
      simp [List.takeWhile_cons_of_pos hl]
    rw [lexeme_of_letter hl]
    exact ⟨(c :: rest).dropWhile isLetter, List.takeWhile_append_dropWhile.symm,
      spells_ofWord hne hall, stops_word hne hall not_of_mem_head?_dropWhile⟩
  by_cases hd : isDigit c
  · have hall : ∀ x ∈ (String.ofList ((c :: rest).takeWhile isDigit)).toList, isDigit x := by
      rw [String.toList_ofList]
      exact fun x hx => List.mem_takeWhile_imp hx
    have hne : String.ofList ((c :: rest).takeWhile isDigit) ≠ "" := by
      simp [List.takeWhile_cons_of_pos hd]
    rw [lexeme_of_digit hd]
    exact ⟨(c :: rest).dropWhile isDigit, List.takeWhile_append_dropWhile.symm,
      .number hne hall, stops_number hne hall not_of_mem_head?_dropWhile⟩
  by_cases hone : Kind.ofDoubled? c = none ∨ rest.head? ≠ some '='
  · rw [lexeme_of_single hl hd hone]
    refine ⟨rest, rfl, spells_ofSymbol hg hl hd, stops_other (by simp) hl hd fun hsym => ?_⟩
    refine hone.resolve_left fun hnone => ?_
    rcases hsym with h | h
    · obtain rfl : c = '=' := by simpa [String.ext_iff] using h
      contradiction
    · obtain rfl : c = '!' := by simpa [String.ext_iff] using h
      contradiction
  · rw [not_or, not_not] at hone
    obtain ⟨k, hk⟩ := Option.ne_none_iff_exists'.mp hone.1
    obtain ⟨tail, rfl⟩ := List.head?_eq_some_iff.mp hone.2
    rw [lexeme_of_doubled hk]
    refine ⟨tail, rfl, .symbol (ofDoubled?_mem hk), stops_other (by simp) hl hd ?_⟩
    rintro (h | h) <;> simp [String.ext_iff] at h

/-- A piece that spells a token and stops is what the scanner takes. -/
theorem lexeme_of_spells {k : Kind} {w : String} {c : Char} {rest tail : List Char}
    (hw : Spells k w) (hstop : Stops w tail) (h : c :: rest = w.toList ++ tail) :
    lexeme c rest = (k, w.toList) := by
  have hmem : w ≠ "" → c ∈ w.toList := by
    intro hne
    cases hlist : w.toList with
    | nil => exact absurd (by simpa using hlist) hne
    | cons x xs =>
      rw [hlist] at h
      rw [(List.cons.inj h).1]
      exact List.mem_cons_self
  have hword : w ≠ "" → (∀ x ∈ w.toList, isLetter x) →
      lexeme c rest = (Kind.ofWord w, w.toList) := by
    intro hne hall
    rw [lexeme_of_letter (hall c (hmem hne)), h, takeWhile_run hall (hstop.letters hall),
      String.ofList_toList]
  cases hw with
  | keyword hk =>
    obtain ⟨hne, hletters⟩ := letters_of_keyword hk
    rw [hword hne hletters, ofWord_of_mem hk]
  | name hne hall hnot => rw [hword hne hall, ofWord_of_not_mem hnot]
  | number hne hall =>
    rw [lexeme_of_digit (hall c (hmem hne)), h, takeWhile_run hall (hstop.digits hall)]
  | symbol hk =>
    obtain ⟨x, hl, hd, ⟨hlist, hone⟩ | ⟨hlist, htwo⟩⟩ := symbol_cases hk
    · rw [hlist, List.singleton_append, List.cons.injEq] at h
      obtain ⟨rfl, rfl⟩ := h
      rw [lexeme_of_single hl hd, hone, hlist]
      refine (ofDoubled?_eq_none_or c).imp_right fun hc => hstop.symbol ?_
      refine hc.imp ?_ ?_ <;> rintro rfl <;> simpa [String.ext_iff] using hlist
    · rw [hlist] at h
      obtain ⟨rfl, rfl⟩ := List.cons.inj h
      rw [hlist]
      exact lexeme_of_doubled htwo tail
  | other hg hl hd hnot =>
    rw [String.toList_singleton, List.singleton_append, List.cons.injEq] at h
    obtain ⟨rfl, rfl⟩ := h
    have hill : Kind.ofSymbol c = .illegal := by
      by_contra hne
      exact hnot _ (ofSymbol_mem hne)
    rw [lexeme_of_single hl hd, hill, String.toList_singleton]
    left
    rcases ofDoubled?_eq_none_or c with hnone | rfl | rfl
    · exact hnone
    · exact absurd (by decide) (hnot .assign)
    · exact absurd (by decide) (hnot .bang)

/-! ## One kind for a text, and one text for most kinds -/

theorem stops_nil (w : String) : Stops w [] where
  letters _ := by rintro c ⟨⟩
  digits _ := by rintro c ⟨⟩
  symbol _ := nofun

/-- A text spells one kind. -/
theorem Spells.kind_unique {k l : Kind} {w : String} (h : Spells k w) (h' : Spells l w)
    (hne : w ≠ "") : k = l := by
  obtain ⟨c, rest, hw⟩ := List.exists_cons_of_ne_nil (by simpa using hne : w.toList ≠ [])
  rw [← List.append_nil w.toList] at hw
  have hk := lexeme_of_spells h (stops_nil w) hw.symm
  rw [lexeme_of_spells h' (stops_nil w) hw.symm] at hk
  exact (congrArg Prod.fst hk).symm

/-- A keyword, an operator and a delimiter are spelled in one way. -/
theorem Spells.text_unique {k : Kind} {v w : String} (h : Spells k v) (h' : Spells k w)
    (hk : k ∉ [.illegal, .ident, .int]) : v = w := by
  have hfixed : ∀ {u}, Spells k u → (u, k) ∈ Kind.keywords ++ Kind.symbols := by
    rintro u (hmem | _ | _ | hmem | _)
    · exact List.mem_append_left _ hmem
    · exact absurd (by decide) hk
    · exact absurd (by decide) hk
    · exact List.mem_append_right _ hmem
    · exact absurd (by decide) hk
  have hunique : ∀ p ∈ Kind.keywords ++ Kind.symbols, ∀ q ∈ Kind.keywords ++ Kind.symbols,
      p.2 = q.2 → p.1 = q.1 := by decide
  exact hunique _ (hfixed h) _ (hfixed h') rfl

end MonkeyFrontend
