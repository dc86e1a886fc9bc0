import MonkeyFrontend.Json.Basic
import MonkeyFrontend.Proofs.Text.Integer
import MonkeyFrontend.Proofs.Text.Quoted

/-! # Reading structured data

The notation of structured data, as any reader of it takes it: a sign tells what a value is, blanks
may stand before every sign, the members of a list or a record have commas between them and none
behind the last, and what is closed is closed by its own sign.  Nothing of the layout is taken for
granted.  Numbers with fractions or exponents are refused, since no value here holds them.

A reader is handed readers of its parts together with a bound on the texts that these are asked
for (`further?`), so that values can be read by one recursion on the length of the text (`value?`).
-/
namespace MonkeyFrontend.Json

open Text (Portion)

/-! ## Signs -/

/-- The first character that is no blank. -/
def sign? (cs : List Char) : Option (Portion Char cs) :=
  match cs with
  | [] => none
  | c :: rest =>
    if c.isWhitespace then (sign? rest).map Portion.behindChar
    else some (.single c c rest)

/-- A word that must stand at the head of a text. -/
def word? {c : Char} (word : List Char) (rest : List Char) : Option (Portion Unit (c :: rest)) :=
  if word <+: rest then
    some ⟨(), rest.drop word.length, by rw [List.length_drop, List.length_cons]; omega⟩
  else none

/-! ## Texts -/

/-- The character that a letter behind a backslash stands for. -/
def named? : Char → Option Char
  | '"' => some '"'
  | '\\' => some '\\'
  | '/' => some '/'
  | 'b' => some '\x08'
  | 'f' => some '\x0c'
  | 'n' => some '\n'
  | 'r' => some '\r'
  | 't' => some '\t'
  | _ => none

/-- A code unit in four digits. -/
def unit? (cs : List Char) : Option (Portion Nat cs) :=
  if h : 4 ≤ cs.length then
    (Text.hexNumber? 0 (cs.take 4)).map fun n =>
      ⟨n, cs.drop 4, by rw [List.length_drop]; omega⟩
  else none

/-- The second unit of a pair, with its own backslash. -/
def secondUnit? (cs : List Char) : Option (Portion Nat cs) :=
  match cs with
  | '\\' :: 'u' :: rest => ((unit? rest).map Portion.behindChar).map Portion.behindChar
  | _ => none

/-- A character by its code units; the first of a pair must be followed by the second. -/
def coded? (cs : List Char) : Option (Portion Char cs) :=
  match unit? cs with
  | none => none
  | some first =>
    if 0xd800 ≤ first.value ∧ first.value < 0xdc00 then
      match secondUnit? first.rest with
      | none => none
      | some second =>
        if 0xdc00 ≤ second.value ∧ second.value < 0xe000 then
          (Text.character?
            (0x10000 + 0x400 * (first.value - 0xd800) + (second.value - 0xdc00))).map fun c =>
              first.behind (second.map fun _ => c)
        else none
    else (Text.character? first.value).map fun c => first.map fun _ => c

/-- The character that is written behind a backslash. -/
def escaped? (cs : List Char) : Option (Portion Char cs) :=
  match cs with
  | [] => none
  | letter :: rest =>
    if letter = 'u' then (coded? rest).map Portion.behindChar
    else (named? letter).map fun c => .single c letter rest

/-- The first character of a quoted text.  Control characters must be escaped. -/
def unescape? (cs : List Char) : Option (Portion Char cs) :=
  match cs with
  | [] => none
  | c :: rest =>
    if c = '\\' then (escaped? rest).map Portion.behindChar
    else if ' ' ≤ c then some (.single c c rest)
    else none

/-- A text, behind its opening quote. -/
def text? (cs : List Char) : Option (Portion String cs) :=
  (Text.upTo '"' unescape? cs).map (Portion.map String.ofList)

/-! ## Values without members -/

/-- An integer; a number that goes on behind its digits is none. -/
def integer? (cs : List Char) : Option (Portion Int cs) :=
  match Text.integer? cs with
  | none => none
  | some number =>
    if number.rest.head? = some '.' ∨ number.rest.head? = some 'e' ∨ number.rest.head? = some 'E'
    then none
    else some number

/-- A value that is neither quoted nor bracketed. -/
def scalar? (c : Char) (rest : List Char) : Option (Portion Json (c :: rest)) :=
  if c = 'n' then (word? ['u', 'l', 'l'] rest).map (Portion.map fun _ => null)
  else if c = 't' then (word? ['r', 'u', 'e'] rest).map (Portion.map fun _ => bool true)
  else if c = 'f' then (word? ['a', 'l', 's', 'e'] rest).map (Portion.map fun _ => bool false)
  else (integer? (c :: rest)).map (Portion.map int)

/-! ## Members -/

section Members

variable {α : Type} {n : Nat}

/-- What follows a member: the closing sign, or a comma and further members. -/
def further? (close : Char) (member : (ds : List Char) → ds.length < n → Option (Portion α ds))
    (cs : List Char) (hcs : cs.length < n) : Option (Portion (List α) cs) :=
  match sign? cs with
  | none => none
  | some sign =>
    if sign.value = close then some (sign.map fun _ => [])
    else if sign.value = ',' then
      match member sign.rest (Nat.lt_trans sign.shorter hcs) with
      | none => none
      | some first =>
        have hfirst : first.rest.length < cs.length := Nat.lt_trans first.shorter sign.shorter
        (further? close member first.rest (Nat.lt_trans hfirst hcs)).map fun later =>
          sign.behind (first.behind (later.map (first.value :: ·)))
    else none
termination_by cs.length

/-- The members up to the closing sign. -/
def members? (close : Char) (member : (ds : List Char) → ds.length < n → Option (Portion α ds))
    (cs : List Char) (hcs : cs.length < n) : Option (Portion (List α) cs) :=
  match sign? cs with
  | none => none
  | some sign =>
    if sign.value = close then some (sign.map fun _ => [])
    else
      match member cs hcs with
      | none => none
      | some first =>
        (further? close member first.rest (Nat.lt_trans first.shorter hcs)).map fun later =>
          first.behind (later.map (first.value :: ·))

/-- A member of a record: its name, a colon and its value. -/
def field? (member : (ds : List Char) → ds.length < n → Option (Portion α ds))
    (cs : List Char) (hcs : cs.length < n) : Option (Portion (String × α) cs) :=
  match sign? cs with
  | none => none
  | some quote =>
    if quote.value = '"' then
      match text? quote.rest with
      | none => none
      | some key =>
        match sign? key.rest with
        | none => none
        | some colon =>
          if colon.value = ':' then
            let before := quote.behind (key.behind colon)
            (member colon.rest (Nat.lt_trans before.shorter hcs)).map fun j =>
              before.behind (j.map (key.value, ·))
          else none
    else none

end Members

/-! ## Values -/

/-- A value. -/
def value? (cs : List Char) : Option (Portion Json cs) :=
  match sign? cs with
  | none => none
  | some sign =>
    if sign.value = '"' then (text? sign.rest).map fun s => sign.behind (s.map text)
    else if sign.value = '[' then
      (members? ']' (fun ds (_ : ds.length < cs.length) => value? ds) sign.rest sign.shorter).map
        fun js => sign.behind (js.map list)
    else if sign.value = '{' then
      (members? '}' (fun ds (_ : ds.length < cs.length) =>
        field? (fun es (_ : es.length < cs.length) => value? es) ds ‹_›) sign.rest
        sign.shorter).map fun fields => sign.behind (fields.map record)
    else (scalar? sign.value sign.rest).map sign.startingWith
termination_by cs.length

/-- The value that a text holds: all of the text, but for blanks. -/
def decode (s : String) : Option Json :=
  match value? s.toList with
  | none => none
  | some j => if j.rest.all Char.isWhitespace then some j.value else none

end MonkeyFrontend.Json
