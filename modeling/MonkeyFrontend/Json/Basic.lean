import MonkeyFrontend.Text.Quoted

/-! # Structured data

Values made of empty slots, truth values, integers, texts, lists and records, and their
layout as a text: each member of a list or record on a line of its own, indented by two
spaces a level, every character outside the printable ones of the basic Latin alphabet
written by its code.  The members of a record keep their order.
-/
namespace MonkeyFrontend

/-- A structured value. -/
inductive Json where
  | null
  | bool (b : Bool)
  | int (i : Int)
  | text (s : String)
  | list (members : List Json)
  | record (members : List (String × Json))

namespace Json

/-- The code units of a character: one, or two surrogates above the basic plane. -/
def units (c : Char) : List Nat :=
  if c.toNat < 0x10000 then [c.toNat]
  else [0xd800 + (c.toNat - 0x10000) / 0x400, 0xdc00 + (c.toNat - 0x10000) % 0x400]

/-- How one character stands in a quoted text. -/
def escape (c : Char) : List Char :=
  if c = '"' ∨ c = '\\' then ['\\', c]
  else if c = '\n' then ['\\', 'n']
  else if c = '\r' then ['\\', 'r']
  else if c = '\t' then ['\\', 't']
  else if c = '\x08' then ['\\', 'b']
  else if c = '\x0c' then ['\\', 'f']
  else if ' ' ≤ c ∧ c ≤ '~' then [c]
  else (units c).flatMap fun n => '\\' :: 'u' :: Text.hex 4 n

/-- A quoted text, before more text. -/
def writeText (s : String) (more : List Char) : List Char :=
  '"' :: (s.toList.flatMap escape ++ '"' :: more)

/-- A new line at some level, before more text. -/
def newline (level : Nat) (more : List Char) : List Char :=
  '\n' :: (List.replicate (2 * level) ' ' ++ more)

/-- The name of a member, before its value. -/
def writeKey (key : String) (more : List Char) : List Char :=
  writeText key (':' :: ' ' :: more)

mutual

/-- The layout of a value whose first line stands at some level, before more text. -/
def write (level : Nat) (more : List Char) : Json → List Char
  | null => "null".toList ++ more
  | bool true => "true".toList ++ more
  | bool false => "false".toList ++ more
  | int i => (toString i).toList ++ more
  | text s => writeText s more
  | list [] => '[' :: ']' :: more
  | list (j :: js) =>
    '[' :: newline (level + 1) (j.write (level + 1) (writeMembers (level + 1)
      (newline level (']' :: more)) js))
  | record [] => '{' :: '}' :: more
  | record ((k, j) :: js) =>
    '{' :: newline (level + 1) (writeKey k (j.write (level + 1) (writeFields (level + 1)
      (newline level ('}' :: more)) js)))

/-- The further members of a list, before more text. -/
def writeMembers (level : Nat) (more : List Char) : List Json → List Char
  | [] => more
  | j :: js => ',' :: newline level (j.write level (writeMembers level more js))

/-- The further members of a record, before more text. -/
def writeFields (level : Nat) (more : List Char) : List (String × Json) → List Char
  | [] => more
  | (k, j) :: js =>
    ',' :: newline level (writeKey k (j.write level (writeFields level more js)))

end

/-- The layout of a value. -/
def layout (j : Json) : String := String.ofList (j.write 0 [])

end Json

end MonkeyFrontend
