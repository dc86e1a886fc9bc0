import Mathlib.Algebra.Group.Nat.Defs
import MonkeyFrontend.Proofs.Text.Portion
import MonkeyFrontend.Text.Quoted

/-! # Quoted texts are read back

A quoted text can be read without knowing where it ends (`reads_quoteChars`): the quote in front
tells which quote closes it, and behind a backslash a letter tells how many digits follow.  So no
two texts are quoted alike, whatever stands behind them (`quote_append_inj`), and nothing of a text
that could not be shown gets through (`isPrintable_of_mem_quote`).
-/
namespace MonkeyFrontend.Text

/-! ## Hexadecimal numbers -/

/-- The value of a hexadecimal digit, in letters of either case. -/
def hexValue? (c : Char) : Option Nat :=
  if '0' ≤ c ∧ c ≤ '9' then some (c.toNat - '0'.toNat)
  else if 'a' ≤ c ∧ c ≤ 'f' then some (c.toNat - 'a'.toNat + 10)
  else if 'A' ≤ c ∧ c ≤ 'F' then some (c.toNat - 'A'.toNat + 10)
  else none

/-- The number that hexadecimal digits denote behind digits of value `n`; `none` when a character
is no digit. -/
def hexNumber? (n : Nat) : List Char → Option Nat
  | [] => some n
  | c :: cs =>
    match hexValue? c with
    | none => none
    | some d => hexNumber? (16 * n + d) cs

theorem hexValue?_digitChar {d : Nat} (h : d < 16) : hexValue? d.digitChar = some d := by
  revert d
  decide

theorem hexNumber?_append (n : Nat) (cs ds : List Char) :
    hexNumber? n (cs ++ ds) = (hexNumber? n cs).bind (hexNumber? · ds) := by
  induction cs generalizing n with
  | nil => rfl
  | cons c cs ih =>
    rw [List.cons_append, hexNumber?, hexNumber?]
    cases hexValue? c with
    | none => rfl
    | some d => exact ih _

theorem length_hex (width n : Nat) : (hex width n).length = width := by
  induction width generalizing n with
  | zero => rfl
  | succ width ih => rw [hex, List.length_append, ih, List.length_singleton]

/-- Digits of some width denote the number whose last digits they are. -/
theorem hexNumber?_hex {width n : Nat} (h : n < 16 ^ width) (m : Nat) :
    hexNumber? m (hex width n) = some (m * 16 ^ width + n) := by
  induction width generalizing n with
  | zero =>
    obtain rfl : n = 0 := Nat.lt_one_iff.mp h
    rw [hex, hexNumber?, Nat.pow_zero, Nat.mul_one, Nat.add_zero]
  | succ width ih =>
    have hhigh : n / 16 < 16 ^ width := Nat.div_lt_of_lt_mul (by rwa [Nat.mul_comm, ← Nat.pow_succ])
    have hlow : n % 16 < 16 := Nat.mod_lt n (by decide)
    have hsplit : 16 * (m * 16 ^ width + n / 16) + n % 16 = m * 16 ^ (width + 1) + n := by
      rw [Nat.pow_succ, Nat.mul_add, Nat.add_assoc, Nat.div_add_mod, Nat.mul_left_comm,
        Nat.mul_comm (16 ^ width)]
    rw [hex, hexNumber?_append, ih hhigh, Option.bind_some, hexNumber?, hexValue?_digitChar hlow]
    exact congrArg some hsplit

/-! ## Reading a quoted text -/

/-- The character with a number; surrogates have none. -/
def character? (n : Nat) : Option Char := if n.isValidChar then some (Char.ofNat n) else none

theorem character?_toNat (c : Char) : character? c.toNat = some c := by
  have hvalid : c.toNat.isValidChar := c.valid
  rw [character?, if_pos hvalid, Char.ofNat_toNat]

/-- The character that a letter behind a backslash stands for. -/
def named? : Char → Option Char
  | '\\' => some '\\'
  | '\'' => some '\''
  | '"' => some '"'
  | 'n' => some '\n'
  | 'r' => some '\r'
  | 't' => some '\t'
  | _ => none

/-- How many digits follow a letter behind a backslash. -/
def codeWidth? : Char → Option Nat
  | 'x' => some 2
  | 'u' => some 4
  | 'U' => some 8
  | _ => none

/-- The character that is written behind a backslash. -/
def escaped? (cs : List Char) : Option (Portion Char cs) :=
  match cs with
  | [] => none
  | letter :: rest =>
    match named? letter, codeWidth? letter with
    | some c, _ => some (.single c letter rest)
    | none, none => none
    | none, some width =>
      ((hexNumber? 0 (rest.take width)).bind character?).map fun c =>
        ⟨c, rest.drop width, by rw [List.length_drop, List.length_cons]; omega⟩

/-- The first character between quotes. -/
def unescape? (cs : List Char) : Option (Portion Char cs) :=
  match cs with
  | [] => none
  | c :: rest =>
    if c = '\\' then (escaped? rest).map Portion.behindChar
    else some (.single c c rest)

/-- The text between two quotes of one kind. -/
def unquote? (cs : List Char) : Option (Portion (List Char) cs) :=
  match cs with
  | [] => none
  | quote :: rest =>
    if quote = '\'' ∨ quote = '"' then
      (upTo quote unescape? rest).map Portion.behindChar
    else none

theorem reads_behind_backslash {c : Char} {cs more : List Char} (h : Reads (escaped? cs) c more) :
    Reads (unescape? ('\\' :: cs)) c more := by
  rw [unescape?, if_pos rfl]
  exact h.behindChar

/-- A character that is named behind a backslash. -/
theorem reads_named {letter c : Char} (h : named? letter = some c) (more : List Char) :
    Reads (escaped? (letter :: more)) c more := by
  rw [escaped?, h]
  exact ⟨_, rfl⟩

/-- A character that is given by its number behind a backslash. -/
theorem reads_code {letter c : Char} {width : Nat} (hname : named? letter = none)
    (hwidth : codeWidth? letter = some width) (hc : c.toNat < 16 ^ width) (more : List Char) :
    Reads (escaped? (letter :: (hex width c.toNat ++ more))) c more := by
  have htake : (hex width c.toNat ++ more).take width = hex width c.toNat :=
    List.take_left' (length_hex _ _)
  have hdrop : (hex width c.toNat ++ more).drop width = more :=
    List.drop_left' (length_hex _ _)
  have hcode : (hexNumber? 0 (hex width c.toNat)).bind character? = some c := by
    rw [hexNumber?_hex hc, Option.bind_some, Nat.zero_mul, Nat.zero_add, character?_toNat]
  rw [escaped?, hname, hwidth]
  simp only [htake, hdrop, hcode]
  exact ⟨_, rfl⟩

/-- **What stands for a character between quotes is read as this character.** -/
theorem reads_escape {quote : Char} (hquote : named? quote = some quote) (c : Char)
    (more : List Char) : Reads (unescape? (escape quote c ++ more)) c more := by
  by_cases hsame : c = quote ∨ c = '\\'
  · have hname : named? c = some c := by
      rcases hsame with rfl | rfl
      · exact hquote
      · rfl
    rw [escape, if_pos hsame]
    exact reads_behind_backslash (reads_named hname more)
  rw [escape, if_neg hsame]
  by_cases hline : c = '\n'
  · subst hline
    exact reads_behind_backslash (reads_named rfl more)
  by_cases hreturn : c = '\r'
  · subst hreturn
    exact reads_behind_backslash (reads_named rfl more)
  by_cases htab : c = '\t'
  · subst htab
    exact reads_behind_backslash (reads_named rfl more)
  rw [if_neg hline, if_neg hreturn, if_neg htab]
  by_cases hprintable : isPrintable c
  · rw [if_pos hprintable, List.singleton_append, unescape?, if_neg (not_or.mp hsame).2]
    exact ⟨_, rfl⟩
  rw [if_neg hprintable]
  by_cases hlow : c.toNat < 0x100
  · rw [if_pos hlow]
    exact reads_behind_backslash (@reads_code 'x' c 2 rfl rfl hlow more)
  rw [if_neg hlow]
  by_cases hbasic : c.toNat < 0x10000
  · rw [if_pos hbasic]
    exact reads_behind_backslash (@reads_code 'u' c 4 rfl rfl hbasic more)
  rw [if_neg hbasic]
  have hbound : c.toNat < 16 ^ 8 := Nat.lt_of_lt_of_le c.val.toNat_lt (by decide)
  exact reads_behind_backslash (@reads_code 'U' c 8 rfl rfl hbound more)

/-- What stands for a character between quotes does not begin with the closing quote. -/
theorem head_escape {quote : Char} (hquote : '\\' ≠ quote) (c : Char) :
    ∃ d tail, escape quote c = d :: tail ∧ d ≠ quote := by
  by_cases hsame : c = quote ∨ c = '\\'
  · rw [escape, if_pos hsame]
    exact ⟨'\\', [c], rfl, hquote⟩
  rw [escape, if_neg hsame]
  split_ifs
  case pos | pos | pos => exact ⟨'\\', _, rfl, hquote⟩
  case pos => exact ⟨c, [], rfl, (not_or.mp hsame).1⟩
  all_goals exact ⟨'\\', _, rfl, hquote⟩

theorem quoteFor_cases (cs : List Char) : quoteFor cs = '\'' ∨ quoteFor cs = '"' := by
  unfold quoteFor
  split_ifs
  · exact Or.inr rfl
  · exact Or.inl rfl

/-- **A quoted text is read back**, whatever stands behind it. -/
theorem reads_quoteChars (cs more : List Char) :
    Reads (unquote? (quoteChars cs ++ more)) cs more := by
  have hname : named? (quoteFor cs) = some (quoteFor cs) := by
    rcases quoteFor_cases cs with h | h <;> rw [h] <;> rfl
  have hslash : '\\' ≠ quoteFor cs := by
    rcases quoteFor_cases cs with h | h <;> rw [h] <;> decide
  obtain ⟨_, hbody⟩ := reads_upTo (reads_escape hname) (head_escape hslash) cs more
  rw [quoteChars, List.cons_append, List.append_assoc, List.singleton_append, unquote?,
    if_pos (quoteFor_cases cs), hbody]
  exact ⟨_, rfl⟩

/-- **No two texts are quoted alike**, and what follows does not change where a quoted text ends. -/
theorem quote_append_inj {s t x y : String} (h : quote s ++ x = quote t ++ y) : s = t ∧ x = y := by
  have hchars := congrArg String.toList h
  rw [String.toList_append, String.toList_append, quote, quote, String.toList_ofList,
    String.toList_ofList] at hchars
  have hs := reads_quoteChars s.toList x.toList
  rw [hchars] at hs
  obtain ⟨hst, hxy⟩ := hs.unique (reads_quoteChars t.toList y.toList)
  exact ⟨String.toList_injective hst, String.toList_injective hxy⟩

/-! ## What a quoted text shows -/

theorem isPrintable_of_mem_hex {width n : Nat} {c : Char} (h : c ∈ hex width n) :
    isPrintable c := by
  have hdigit : ∀ d < 16, isPrintable (Nat.digitChar d) := by decide
  induction width generalizing n with
  | zero => exact absurd h List.not_mem_nil
  | succ width ih =>
    rw [hex, List.mem_append, List.mem_singleton] at h
    rcases h with h | rfl
    · exact ih h
    · exact hdigit _ (Nat.mod_lt n (by decide))

/-- What stands for a character between quotes can be shown. -/
theorem isPrintable_of_mem_escape {quote c d : Char} (hquote : isPrintable quote)
    (h : d ∈ escape quote c) : isPrintable d := by
  have hslash : isPrintable '\\' := by decide
  have hcode : ∀ {letter : Char} {width : Nat}, isPrintable letter →
      d ∈ '\\' :: letter :: hex width c.toNat → isPrintable d := by
    intro letter width hletter hd
    rcases List.mem_cons.mp hd with rfl | hd
    · exact hslash
    · rcases List.mem_cons.mp hd with rfl | hd
      · exact hletter
      · exact isPrintable_of_mem_hex hd
  unfold escape at h
  split_ifs at h with hsame hline hreturn htab hprintable
  · rcases List.mem_pair.mp h with rfl | rfl
    · exact hslash
    · rcases hsame with rfl | rfl
      · exact hquote
      · exact hslash
  · exact @hcode 'n' 0 (by decide) h
  · exact @hcode 'r' 0 (by decide) h
  · exact @hcode 't' 0 (by decide) h
  · rwa [List.mem_singleton.mp h]
  · exact hcode (by decide) h
  · exact hcode (by decide) h
  · exact hcode (by decide) h

/-- **A quoted text shows only characters that can be shown.** -/
theorem isPrintable_of_mem_quote {s : String} {d : Char} (h : d ∈ (quote s).toList) :
    isPrintable d := by
  have hquote : isPrintable (quoteFor s.toList) := by
    rcases quoteFor_cases s.toList with h | h <;> rw [h] <;> decide
  rw [quote, String.toList_ofList, quoteChars, List.mem_cons, List.mem_append, List.mem_flatMap,
    List.mem_singleton] at h
  rcases h with rfl | ⟨c, -, hc⟩ | rfl
  · exact hquote
  · exact isPrintable_of_mem_escape hquote hc
  · exact hquote

end MonkeyFrontend.Text
