import MonkeyFrontend.Proofs.Json.Reading

/-! # Structured data is read back from its layout

A reader that knows nothing of the layout gets every value back from it (`decode_layout`).  Each
part of the layout is read whatever stands behind it, with one exception: behind an integer there
must be no character that would belong to the number (`EndsNumber`).  The layout keeps to this, for
behind a value stands a comma, a line end or nothing.

The induction is on the value; the members of a list or a record are an induction of their own
(`reads_further`), which is handed that they are read one by one.
-/
namespace MonkeyFrontend.Json

open Text (Portion Reads)

variable {α : Type} {more : List Char}

/-! ## Signs -/

theorem reads_sign {c : Char} (h : ¬ c.isWhitespace) (rest : List Char) :
    Reads (sign? (c :: rest)) c rest := by
  rw [sign?, if_neg h]
  exact ⟨_, rfl⟩

/-- Line ends and indentation are no signs. -/
theorem reads_sign_newline (level : Nat) {c : Char} {rest : List Char}
    (h : Reads (sign? more) c rest) : Reads (sign? (newline level more)) c rest := by
  have hspaces : ∀ n, Reads (sign? (List.replicate n ' ' ++ more)) c rest := by
    intro n
    induction n with
    | zero => exact h
    | succ n ih =>
      rw [List.replicate_succ, List.cons_append, sign?, if_pos (by decide)]
      exact ih.behindChar
  rw [newline, sign?, if_pos (by decide)]
  exact (hspaces _).behindChar

theorem reads_word {c : Char} (word more : List Char) :
    Reads (@word? c word (word ++ more)) () more := by
  unfold word?
  simp only [List.prefix_append, if_true, List.drop_left]
  exact ⟨_, rfl⟩

/-! ## Texts -/

theorem reads_unit {u : Nat} (hu : u < 0x10000) (more : List Char) :
    Reads (unit? (Text.hex 4 u ++ more)) u more := by
  have hlength : 4 ≤ (Text.hex 4 u ++ more).length := by
    rw [List.length_append, Text.length_hex]
    exact Nat.le_add_right _ _
  have htake : (Text.hex 4 u ++ more).take 4 = Text.hex 4 u := List.take_left' (Text.length_hex _ _)
  have hdrop : (Text.hex 4 u ++ more).drop 4 = more := List.drop_left' (Text.length_hex _ _)
  have hnumber : Text.hexNumber? 0 (Text.hex 4 u) = some u := by
    rw [Text.hexNumber?_hex hu, Nat.zero_mul, Nat.zero_add]
  unfold unit?
  simp only [hlength, dif_pos, htake, hdrop, hnumber]
  exact ⟨_, rfl⟩

/-- **A character is read from its code units**: the one it has, or the two that it is split in. -/
theorem reads_coded (c : Char) (more : List Char) :
    ∃ tail, (units c).flatMap (fun n => '\\' :: 'u' :: Text.hex 4 n) ++ more =
      '\\' :: 'u' :: tail ∧ Reads (coded? tail) c more := by
  unfold units
  by_cases hbasic : c.toNat < 0x10000
  · refine ⟨Text.hex 4 c.toNat ++ more, by simp [hbasic], ?_⟩
    obtain ⟨_, hunit⟩ := reads_unit hbasic more
    have hnot : ¬ (0xd800 ≤ c.toNat ∧ c.toNat < 0xdc00) := by
      have hvalid : c.toNat < 0xd800 ∨ 0xdfff < c.toNat ∧ c.toNat < 0x110000 := c.valid
      omega
    rw [coded?, hunit]
    simp only [hnot, if_false, Text.character?_toNat]
    exact ⟨_, rfl⟩
  · -- A character above the basic plane is split in two halves of ten bits each.
    have hbound : c.toNat < 0x110000 := by
      have hvalid : c.toNat < 0xd800 ∨ 0xdfff < c.toNat ∧ c.toNat < 0x110000 := c.valid
      omega
    obtain ⟨high, hhigh⟩ : ∃ high, high = 0xd800 + (c.toNat - 0x10000) / 0x400 := ⟨_, rfl⟩
    obtain ⟨low, hlow⟩ : ∃ low, low = 0xdc00 + (c.toNat - 0x10000) % 0x400 := ⟨_, rfl⟩
    have hfirst : 0xd800 ≤ high ∧ high < 0xdc00 := by omega
    have hsecond : 0xdc00 ≤ low ∧ low < 0xe000 := by omega
    have hjoined : 0x10000 + 0x400 * (high - 0xd800) + (low - 0xdc00) = c.toNat := by omega
    refine ⟨Text.hex 4 high ++ ('\\' :: 'u' :: (Text.hex 4 low ++ more)), ?_, ?_⟩
    · rw [if_neg hbasic, ← hhigh, ← hlow]
      simp
    · obtain ⟨_, hunit⟩ :=
        reads_unit (Nat.lt_trans hfirst.2 (by decide)) ('\\' :: 'u' :: (Text.hex 4 low ++ more))
      obtain ⟨_, hpair⟩ :
          Reads (secondUnit? ('\\' :: 'u' :: (Text.hex 4 low ++ more))) low more :=
        (reads_unit (Nat.lt_trans hsecond.2 (by decide)) more).behindChar.behindChar
      rw [coded?, hunit]
      simp only [hfirst, and_self, if_true, hpair, hsecond, hjoined, Text.character?_toNat]
      exact ⟨_, rfl⟩

theorem reads_named {letter c : Char} (hletter : letter ≠ 'u') (h : named? letter = some c)
    (more : List Char) : Reads (unescape? ('\\' :: letter :: more)) c more := by
  have hescaped : Reads (escaped? (letter :: more)) c more := by
    rw [escaped?, if_neg hletter, h]
    exact ⟨_, rfl⟩
  rw [unescape?, if_pos rfl]
  exact hescaped.behindChar

/-- **What stands for a character in a quoted text is read as this character.** -/
theorem reads_escape (c : Char) (more : List Char) :
    Reads (unescape? (escape c ++ more)) c more := by
  unfold escape
  by_cases hsign : c = '"' ∨ c = '\\'
  · rw [if_pos hsign]
    rcases hsign with rfl | rfl
    · exact reads_named (by decide) rfl more
    · exact reads_named (by decide) rfl more
  by_cases hline : c = '\n'
  · subst hline
    exact reads_named (by decide) rfl more
  by_cases hreturn : c = '\r'
  · subst hreturn
    exact reads_named (by decide) rfl more
  by_cases htab : c = '\t'
  · subst htab
    exact reads_named (by decide) rfl more
  by_cases hback : c = '\x08'
  · subst hback
    exact reads_named (by decide) rfl more
  by_cases hfeed : c = '\x0c'
  · subst hfeed
    exact reads_named (by decide) rfl more
  rw [if_neg hsign, if_neg hline, if_neg hreturn, if_neg htab, if_neg hback, if_neg hfeed]
  by_cases hplain : ' ' ≤ c ∧ c ≤ '~'
  · rw [if_pos hplain, List.singleton_append, unescape?, if_neg (not_or.mp hsign).2,
      if_pos hplain.1]
    exact ⟨_, rfl⟩
  · obtain ⟨tail, htail, hcoded⟩ := reads_coded c more
    have hescaped : Reads (escaped? ('u' :: tail)) c more := by
      rw [escaped?, if_pos rfl]
      exact hcoded.behindChar
    rw [if_neg hplain, htail, unescape?, if_pos rfl]
    exact hescaped.behindChar

/-- What stands for a character in a quoted text does not begin with a quote. -/
theorem head_escape (c : Char) : ∃ d tail, escape c = d :: tail ∧ d ≠ '"' := by
  by_cases hsign : c = '"' ∨ c = '\\'
  · rw [escape, if_pos hsign]
    exact ⟨'\\', [c], rfl, by decide⟩
  rw [escape, if_neg hsign]
  split_ifs
  case pos | pos | pos | pos | pos => exact ⟨'\\', _, rfl, by decide⟩
  case pos => exact ⟨c, [], rfl, (not_or.mp hsign).1⟩
  case neg =>
    obtain ⟨tail, htail, -⟩ := reads_coded c []
    rw [List.append_nil] at htail
    exact ⟨'\\', _, htail, by decide⟩

theorem reads_text (s : String) (more : List Char) :
    Reads (text? (s.toList.flatMap escape ++ '"' :: more)) s more := by
  have hread := (Text.reads_upTo reads_escape head_escape s.toList more).map String.ofList
  rwa [String.ofList_toList] at hread

/-! ## Values without members -/

/-- No number goes on here. -/
def EndsNumber (more : List Char) : Prop :=
  ∀ c ∈ more.head?, ¬ c.isDigit ∧ c ≠ '.' ∧ c ≠ 'e' ∧ c ≠ 'E'

theorem EndsNumber.comma (more : List Char) : EndsNumber (',' :: more) := by
  rintro c ⟨⟩
  decide

theorem EndsNumber.newline (level : Nat) (more : List Char) : EndsNumber (newline level more) := by
  rintro c ⟨⟩
  decide

theorem EndsNumber.nil : EndsNumber [] := nofun

theorem reads_integer (i : Int) (hmore : EndsNumber more) :
    Reads (integer? ((toString i).toList ++ more)) i more := by
  obtain ⟨_, hread⟩ := Text.reads_integer i fun c hc => (hmore c hc).1
  have hends : ¬ (more.head? = some '.' ∨ more.head? = some 'e' ∨ more.head? = some 'E') := by
    rintro (h | h | h)
    · exact (hmore _ h).2.1 rfl
    · exact (hmore _ h).2.2.1 rfl
    · exact (hmore _ h).2.2.2 rfl
  rw [integer?, hread]
  simp only [hends, if_false]
  exact ⟨_, rfl⟩

/-- What begins a value that is no integer, or closes a list. -/
def otherSigns : List Char := ['"', '[', '{', ']', 'n', 't', 'f']

/-- An integer begins with no blank and with no sign of another value. -/
theorem head_integer (i : Int) :
    ∃ c tail, (toString i).toList = c :: tail ∧ ¬ c.isWhitespace ∧ ∀ d ∈ otherSigns, c ≠ d := by
  have hothers : ∀ d ∈ otherSigns, ¬ (d = '-' ∨ d.isDigit) := by simp [otherSigns]
  have hblanks : ∀ d ∈ [' ', '\t', '\r', '\n'], ¬ (d = '-' ∨ d.isDigit) := by simp
  obtain ⟨c, tail, hwrite⟩ := List.exists_cons_of_ne_nil (Text.toList_toString_ne_nil i)
  have hc : c = '-' ∨ c.isDigit := Text.mem_toString (hwrite ▸ List.mem_cons_self)
  refine ⟨c, tail, hwrite, fun hblank => hblanks c ?_ hc, fun d hd heq => hothers d hd (heq ▸ hc)⟩
  simpa [Char.isWhitespace, or_assoc] using hblank

/-! ## Members -/

/-- Further members in the layout, whatever writes a member. -/
def writeFurther (write : α → List Char → List Char) (level : Nat) (stop : List Char) :
    List α → List Char
  | [] => stop
  | a :: as => ',' :: newline level (write a (writeFurther write level stop as))

/-- A member of a list, before more text. -/
def writeMember (level : Nat) (j : Json) (more : List Char) : List Char := j.write level more

/-- A member of a record, before more text. -/
def writeField (level : Nat) (f : String × Json) (more : List Char) : List Char :=
  writeKey f.1 (f.2.write level more)

theorem writeMembers_eq (level : Nat) (stop : List Char) (js : List Json) :
    writeMembers level stop js = writeFurther (writeMember level) level stop js := by
  induction js with
  | nil => rw [writeMembers, writeFurther]
  | cons j js ih => rw [writeMembers, writeFurther, ih, writeMember]

theorem writeFields_eq (level : Nat) (stop : List Char) (fields : List (String × Json)) :
    writeFields level stop fields = writeFurther (writeField level) level stop fields := by
  induction fields with
  | nil => rw [writeFields, writeFurther]
  | cons f fields ih => rw [writeFields, writeFurther, ih, writeField]

theorem write_list_cons (level : Nat) (more : List Char) (j : Json) (js : List Json) :
    (list (j :: js)).write level more = '[' :: newline (level + 1) (writeMember (level + 1) j
      (writeFurther (writeMember (level + 1)) (level + 1) (newline level (']' :: more)) js)) := by
  rw [write, writeMembers_eq, writeMember]

theorem write_record_cons (level : Nat) (more : List Char) (f : String × Json)
    (fields : List (String × Json)) : (record (f :: fields)).write level more =
      '\x7b' :: newline (level + 1) (writeField (level + 1) f
        (writeFurther (writeField (level + 1)) (level + 1) (newline level ('\x7d' :: more))
          fields)) := by
  rw [write, writeFields_eq, writeField]

section Members

variable {n level : Nat} {close : Char} {stop rest : List Char} {as : List α}
  {member : (ds : List Char) → ds.length < n → Option (Portion α ds)}
  {w : α → List Char → List Char}

theorem endsNumber_writeFurther (hstop : EndsNumber stop) :
    EndsNumber (writeFurther w level stop as) := by
  cases as with
  | nil => exact hstop
  | cons a as => exact .comma _

/-- **Further members are read when they are read one by one.** -/
theorem reads_further (hclose : ',' ≠ close)
    (hread : ∀ a ∈ as, ∀ more, EndsNumber more → ∀ h,
      Reads (member (newline level (w a more)) h) a more)
    (hstop : Reads (sign? stop) close rest) (hends : EndsNumber stop)
    (h : (writeFurther w level stop as).length < n) :
    Reads (further? close member (writeFurther w level stop as) h) as rest := by
  induction as with
  | nil =>
    simp only [writeFurther] at h ⊢
    obtain ⟨_, hstop⟩ := hstop
    rw [further?, hstop]
    simp only [if_true]
    exact ⟨_, rfl⟩
  | cons a as ih =>
    simp only [writeFurther] at h ⊢
    obtain ⟨_, hcomma⟩ := reads_sign (c := ',') (by decide)
      (newline level (w a (writeFurther w level stop as)))
    have hbehind := Nat.lt_trans (Nat.lt_succ_self _) h
    obtain ⟨hshorter, hfirst⟩ := hread a List.mem_cons_self (writeFurther w level stop as)
      (endsNumber_writeFurther hends) hbehind
    obtain ⟨_, hlater⟩ := ih (fun b hb => hread b (List.mem_cons_of_mem _ hb))
      (Nat.lt_trans hshorter hbehind)
    rw [further?, hcomma]
    simp only [hclose, if_false, if_true, hfirst, hlater]
    exact ⟨_, rfl⟩

/-- The members of a list or a record that has some. -/
theorem reads_members {a : α} (hclose : ',' ≠ close)
    (hread : ∀ b ∈ a :: as, ∀ more, EndsNumber more → ∀ h,
      Reads (member (newline level (w b more)) h) b more)
    (hhead : ∀ more, ∃ c tail, Reads (sign? (w a more)) c tail ∧ c ≠ close)
    (hstop : Reads (sign? stop) close rest) (hends : EndsNumber stop)
    (h : (newline level (w a (writeFurther w level stop as))).length < n) :
    Reads (members? close member (newline level (w a (writeFurther w level stop as))) h)
      (a :: as) rest := by
  obtain ⟨c, tail, hsign, hc⟩ := hhead (writeFurther w level stop as)
  obtain ⟨_, hsign⟩ := reads_sign_newline level hsign
  obtain ⟨hshorter, hfirst⟩ := hread a List.mem_cons_self (writeFurther w level stop as)
    (endsNumber_writeFurther hends) h
  obtain ⟨_, hlater⟩ := reads_further hclose (fun b hb => hread b (List.mem_cons_of_mem _ hb))
    hstop hends (Nat.lt_trans hshorter h)
  rw [members?, hsign]
  simp only [hc, if_false, hfirst, hlater]
  exact ⟨_, rfl⟩

theorem reads_members_none (h : (close :: rest).length < n) (hclose : ¬ close.isWhitespace) :
    Reads (members? close member (close :: rest) h) [] rest := by
  obtain ⟨_, hsign⟩ := reads_sign hclose rest
  rw [members?, hsign]
  simp only [if_true]
  exact ⟨_, rfl⟩

/-- A member of a record is read when its value is. -/
theorem reads_field {key : String} {a : α} {value more : List Char}
    (hread : ∀ h, Reads (member (' ' :: value) h) a more)
    (h : (newline level (writeKey key value)).length < n) :
    Reads (field? member (newline level (writeKey key value)) h) (key, a) more := by
  obtain ⟨hquote, hsign⟩ := reads_sign_newline level
    (reads_sign (c := '"') (by decide) (key.toList.flatMap escape ++ '"' :: ':' :: ' ' :: value))
  obtain ⟨hkey, htext⟩ := reads_text key (':' :: ' ' :: value)
  obtain ⟨hcolon, hsign'⟩ := reads_sign (c := ':') (by decide) (' ' :: value)
  obtain ⟨_, hvalue⟩ :=
    hread (Nat.lt_trans hcolon (Nat.lt_trans hkey (Nat.lt_trans hquote h)))
  unfold field? writeKey writeText
  simp only [hsign, if_true, htext, hsign', Portion.behind, hvalue]
  exact ⟨_, rfl⟩

end Members

/-! ## Values -/

variable {cs rest : List Char} {j : Json}

theorem reads_value_text {s : String} (hsign : Reads (sign? cs) '"' rest)
    (h : Reads (text? rest) s more) : Reads (value? cs) (text s) more := by
  obtain ⟨_, hsign⟩ := hsign
  obtain ⟨_, h⟩ := h
  rw [value?, hsign]
  simp only [if_true, h]
  exact ⟨_, rfl⟩

theorem reads_value_list {js : List Json} (hsign : Reads (sign? cs) '[' rest)
    (h : ∀ hrest, Reads (members? ']' (fun ds (_ : ds.length < cs.length) => value? ds) rest hrest)
      js more) : Reads (value? cs) (list js) more := by
  obtain ⟨hrest, hsign⟩ := hsign
  obtain ⟨_, h⟩ := h hrest
  have hquote : '[' ≠ '"' := by decide
  rw [value?, hsign]
  simp only [hquote, if_false, if_true, h]
  exact ⟨_, rfl⟩

theorem reads_value_record {fields : List (String × Json)} (hsign : Reads (sign? cs) '{' rest)
    (h : ∀ hrest, Reads (members? '}' (fun ds (hds : ds.length < cs.length) =>
      field? (fun es (_ : es.length < cs.length) => value? es) ds hds) rest hrest) fields more) :
    Reads (value? cs) (record fields) more := by
  obtain ⟨hrest, hsign⟩ := hsign
  obtain ⟨_, h⟩ := h hrest
  have hquote : '{' ≠ '"' := by decide
  have hbracket : '{' ≠ '[' := by decide
  rw [value?, hsign]
  simp only [hquote, hbracket, if_false, if_true, h]
  exact ⟨_, rfl⟩

theorem reads_value_scalar {c : Char} (hsign : Reads (sign? cs) c rest)
    (hc : c ≠ '"' ∧ c ≠ '[' ∧ c ≠ '{') (h : Reads (scalar? c rest) j more) :
    Reads (value? cs) j more := by
  obtain ⟨_, hsign⟩ := hsign
  obtain ⟨_, h⟩ := h
  rw [value?, hsign]
  simp only [hc, if_false, h]
  exact ⟨_, rfl⟩

/-- No value begins with the sign that closes a list. -/
theorem head_write (j : Json) (level : Nat) (more : List Char) :
    ∃ c tail, Reads (sign? (j.write level more)) c tail ∧ c ≠ ']' := by
  cases j with
  | null | text => exact ⟨_, _, by rw [write]; exact reads_sign (by decide) _, by decide⟩
  | bool b => cases b <;> exact ⟨_, _, by rw [write]; exact reads_sign (by decide) _, by decide⟩
  | list js => cases js <;> exact ⟨_, _, by rw [write]; exact reads_sign (by decide) _, by decide⟩
  | record fields =>
    rcases fields with _ | ⟨⟨k, j⟩, fields⟩ <;>
      exact ⟨_, _, by rw [write]; exact reads_sign (by decide) _, by decide⟩
  | int i =>
    obtain ⟨c, tail, hwrite, hblank, hc⟩ := head_integer i
    refine ⟨c, tail ++ more, ?_, hc _ (by decide)⟩
    rw [write, hwrite]
    exact reads_sign hblank _

/-- A value can be read: from its layout at any level, and from any text that leads to the same
sign. -/
def Readable (j : Json) : Prop :=
  ∀ ⦃level : Nat⦄ ⦃more cs : List Char⦄, EndsNumber more →
    (∀ c rest, Reads (sign? (j.write level more)) c rest → Reads (sign? cs) c rest) →
    Reads (value? cs) j more

namespace Readable

/-- What is written with a word, which neither a quote nor a bracket begins. -/
theorem of_scalar {c : Char} {tail : List Char} {j : Json}
    (hwrite : ∀ level more, j.write level more = c :: (tail ++ more))
    (hblank : ¬ c.isWhitespace) (hc : c ≠ '"' ∧ c ≠ '[' ∧ c ≠ '{')
    (h : ∀ more, EndsNumber more → Reads (scalar? c (tail ++ more)) j more) : Readable j := by
  intro level more cs hmore hcs
  rw [hwrite] at hcs
  exact reads_value_scalar (hcs _ _ (reads_sign hblank _)) hc (h more hmore)

theorem null : Readable null :=
  of_scalar (c := 'n') (fun _ _ => by rw [write]; rfl) (by decide) (by decide) fun more _ =>
    (reads_word ['u', 'l', 'l'] more).map fun _ => Json.null

theorem bool : (b : Bool) → Readable (bool b)
  | true =>
    of_scalar (c := 't') (fun _ _ => by rw [write]; rfl) (by decide) (by decide) fun more _ =>
      (reads_word ['r', 'u', 'e'] more).map fun _ => Json.bool true
  | false =>
    of_scalar (c := 'f') (fun _ _ => by rw [write]; rfl) (by decide) (by decide) fun more _ =>
      (reads_word ['a', 'l', 's', 'e'] more).map fun _ => Json.bool false

theorem int (i : Int) : Readable (int i) := by
  obtain ⟨c, tail, hwrite, hblank, hc⟩ := head_integer i
  refine @of_scalar c tail _ (fun level more => ?_) hblank
    ⟨hc _ (by decide), hc _ (by decide), hc _ (by decide)⟩ fun more hmore => ?_
  · rw [write, hwrite, List.cons_append]
  · have hread := (reads_integer i hmore).map Json.int
    rw [hwrite, List.cons_append] at hread
    rwa [scalar?, if_neg (hc _ (by decide)), if_neg (hc _ (by decide)), if_neg (hc _ (by decide))]

theorem text (s : String) : Readable (text s) := by
  intro level more cs _ hcs
  rw [write, writeText] at hcs
  exact reads_value_text (hcs _ _ (reads_sign (by decide) _)) (reads_text s more)

theorem list {js : List Json} (hjs : ∀ j ∈ js, Readable j) : Readable (list js) := by
  intro level more cs _ hcs
  cases js with
  | nil =>
    rw [write] at hcs
    refine reads_value_list (hcs _ _ (reads_sign (by decide) _)) fun hrest => ?_
    exact reads_members_none hrest (by decide)
  | cons j js =>
    rw [write_list_cons] at hcs
    refine reads_value_list (hcs _ _ (reads_sign (by decide) _)) fun hrest => ?_
    refine reads_members (by decide) (fun i hi more hmore _ => ?_) (j.head_write _)
      (reads_sign_newline _ (reads_sign (by decide) more)) (.newline _ _) hrest
    exact hjs i hi hmore fun _ _ => reads_sign_newline _

theorem record {fields : List (String × Json)} (hfields : ∀ f ∈ fields, Readable f.2) :
    Readable (record fields) := by
  intro level more cs _ hcs
  cases fields with
  | nil =>
    rw [write] at hcs
    refine reads_value_record (hcs _ _ (reads_sign (by decide) _)) fun hrest => ?_
    exact reads_members_none hrest (by decide)
  | cons f fields =>
    rw [write_record_cons] at hcs
    refine reads_value_record (hcs _ _ (reads_sign (by decide) _)) fun hrest => ?_
    have hhead : ∀ more, ∃ c tail,
        Reads (sign? (writeField (level + 1) f more)) c tail ∧ c ≠ '\x7d' :=
      fun more => ⟨_, _, reads_sign (by decide) _, by decide⟩
    refine reads_members (by decide) (fun i hi more hmore _ => ?_) hhead
      (reads_sign_newline _ (reads_sign (by decide) more)) (.newline _ _) hrest
    have hvalue : Reads (value? (' ' :: i.2.write (level + 1) more)) i.2 more := by
      have hi : Readable i.2 := hfields i hi
      refine @hi (level + 1) more _ hmore fun c rest hsign => ?_
      rw [sign?, if_pos (by decide)]
      exact hsign.behindChar
    exact reads_field (fun _ => hvalue) _

end Readable

mutual

/-- **Every value can be read from its layout.** -/
theorem readable : (j : Json) → Readable j
  | null => .null
  | bool b => .bool b
  | int i => .int i
  | text s => .text s
  | list js => .list (readable_of_mem js)
  | record fields => .record (readable_of_mem_fields fields)
termination_by structural j => j

theorem readable_of_mem : (js : List Json) → ∀ j ∈ js, Readable j
  | [] => List.forall_mem_nil _
  | j :: js => List.forall_mem_cons.mpr ⟨readable j, readable_of_mem js⟩
termination_by structural js => js

theorem readable_of_mem_fields : (fields : List (String × Json)) → ∀ f ∈ fields, Readable f.2
  | [] => List.forall_mem_nil _
  | (_, j) :: fields => List.forall_mem_cons.mpr ⟨readable j, readable_of_mem_fields fields⟩
termination_by structural fields => fields

end

/-- **The layout of a value is decoded to this value.** -/
theorem decode_layout (j : Json) : decode j.layout = some j := by
  have hread : Reads (value? j.layout.toList) j [] := by
    rw [layout, String.toList_ofList]
    exact readable j .nil fun _ _ h => h
  obtain ⟨_, hread⟩ := hread
  rw [decode, hread]
  rfl

/-- Different values are laid out differently. -/
theorem layout_injective : Function.Injective layout := by
  intro i j h
  rw [← Option.some.injEq, ← decode_layout i, ← decode_layout j, h]

end MonkeyFrontend.Json
