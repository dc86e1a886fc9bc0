import MonkeyFrontend.Text.Blank

/-! # Entries of a session

A session is typed line by line.  An entry goes on while it has more opening than closing
braces; the words `exit` and `quit`, alone on its first line, end the session instead.
-/
namespace MonkeyFrontend.Session

/-- What was typed: the wish to leave, or a text. -/
inductive Entry where
  | leave
  | text (s : String)
deriving DecidableEq, Repr

/-- The lines of an unfinished entry, and how many braces they leave open. -/
structure Draft where
  lines : List String
  depth : Int
deriving DecidableEq, Repr

/-- How many braces a line opens beyond those it closes. -/
def balance (line : String) : Int := line.toList.count '{' - line.toList.count '}'

/-- A text without the blanks at its two ends. -/
def trimmed (s : String) : String := String.ofList (Text.trim s.toList)

/-- Whether a line asks to leave. -/
def asksToLeave (line : String) : Bool := trimmed line == "exit" || trimmed line == "quit"

namespace Draft

/-- The draft before its first line. -/
def empty : Draft := ⟨[], 0⟩

/-- The prompt for the next line: one for the first, another for all that follow. -/
def prompt (d : Draft) : String := if d.lines.isEmpty then ">> " else ".. "

/-- Adds a line, which may finish the entry. -/
def add (d : Draft) (line : String) : Draft ⊕ Entry :=
  if d.lines.isEmpty && asksToLeave line then .inr .leave
  else
    let lines := d.lines ++ [line]
    let depth := d.depth + balance line
    if depth ≤ 0 then .inr (.text (trimmed (String.intercalate "\n" lines)))
    else .inl ⟨lines, depth⟩

end Draft

/-- What reading an entry gives: the entry, unless the lines ran out, the prompts shown on
the way, and the lines that are left. -/
structure Reading where
  typed? : Option Entry
  prompts : String
  rest : List String

/-- Reads the lines that finish a draft. -/
def read (d : Draft) : List String → Reading
  | [] => ⟨none, d.prompt, []⟩
  | line :: rest =>
    match d.add line with
    | .inr entry => ⟨some entry, d.prompt, rest⟩
    | .inl longer =>
      let later := read longer rest
      ⟨later.typed?, d.prompt ++ later.prompts, later.rest⟩

/-- An entry takes at least one line. -/
theorem length_rest_lt {d : Draft} {lines : List String} {entry : Entry}
    (h : (read d lines).typed? = some entry) : (read d lines).rest.length < lines.length := by
  induction lines generalizing d with
  | nil => simp [read] at h
  | cons line rest ih =>
    simp only [read] at h ⊢
    cases hadd : d.add line with
    | inr e => simp
    | inl longer =>
      simp only [hadd] at h ⊢
      exact Nat.lt_succ_of_lt (ih h)

/-- All entries up to the one that asks to leave, or up to the last line, and the prompts
shown; the last of them is `none` when the lines ran out. -/
def entries (lines : List String) : List (Option Entry) × String :=
  match _h : (read .empty lines).typed? with
  | none => ([none], (read .empty lines).prompts)
  | some .leave => ([some .leave], (read .empty lines).prompts)
  | some (.text s) =>
    let later := entries (read .empty lines).rest
    (some (.text s) :: later.1, (read .empty lines).prompts ++ later.2)
termination_by lines.length
decreasing_by exact length_rest_lt _h

theorem entries_of_none {lines : List String} (h : (read .empty lines).typed? = none) :
    entries lines = ([none], (read .empty lines).prompts) := by
  rw [entries]
  split <;> simp_all

theorem entries_of_leave {lines : List String}
    (h : (read .empty lines).typed? = some .leave) :
    entries lines = ([some .leave], (read .empty lines).prompts) := by
  rw [entries]
  split <;> simp_all

theorem entries_of_text {lines : List String} {s : String}
    (h : (read .empty lines).typed? = some (.text s)) :
    entries lines = (some (.text s) :: (entries (read .empty lines).rest).1,
      (read .empty lines).prompts ++ (entries (read .empty lines).rest).2) := by
  rw [entries]
  split <;> simp_all

end MonkeyFrontend.Session
