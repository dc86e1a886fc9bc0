import Mathlib.Data.List.Infix
import MonkeyFrontend.Session.Entry

/-! # How lines are shared out among entries

A reading runs with a count of the open braces and stops at the first line behind which none is
open.  Seen from outside it takes the first of all beginnings of the lines ahead that opens no more
braces than it closes (`read_eq`), unless the first line asks to leave; what follows a first line is
never asked.  Readings one behind the other share out the lines: each line goes to one reading, in
order, and none is left after as many readings as there are lines (`read_partitions`).

The induction is on the lines, for a draft that has some already (`read_further`): its depth moves
into the condition on the beginnings.
-/
namespace MonkeyFrontend.Session

/-! ## The first closed beginning -/

/-- How many braces some lines open beyond those they close. -/
def opened (lines : List String) : Int :=
  (lines.flatMap String.toList).count '{' - (lines.flatMap String.toList).count '}'

theorem opened_cons (line : String) (rest : List String) :
    opened (line :: rest) = balance line + opened rest := by
  simp only [opened, balance, List.flatMap_cons, List.count_append]
  omega

/-- The shortest beginning of some lines, but for the empty one, behind which no brace is open when
`depth` are open before it. -/
def closing? (depth : Int) (lines : List String) : Option (List String) :=
  lines.inits.tail.find? fun front => depth + opened front ≤ 0

theorem closing?_nil (depth : Int) : closing? depth [] = none := rfl

theorem closing?_cons (depth : Int) (line : String) (rest : List String) :
    closing? depth (line :: rest) =
      if depth + balance line ≤ 0 then some [line]
      else (closing? (depth + balance line) rest).map (line :: ·) := by
  have hinits : rest.inits = [] :: rest.inits.tail := by cases rest <;> rfl
  have hone : opened [line] = balance line := by rw [opened_cons]; exact Int.add_zero _
  have hmore : ((fun front => decide (depth + opened front ≤ 0)) ∘ fun front => line :: front) =
      fun front => decide (depth + balance line + opened front ≤ 0) := by
    funext front
    rw [Function.comp_apply, opened_cons, ← Int.add_assoc]
  rw [closing?, List.inits_cons, List.tail_cons, hinits, List.map_cons]
  by_cases h : depth + balance line ≤ 0
  · rw [if_pos h, List.find?_cons_of_pos (by simpa [hone] using h)]
  · rw [if_neg h, List.find?_cons_of_neg (by simpa [hone] using h), List.find?_map, hmore, closing?]

/-! ## One reading -/

/-- The prompts for some readings of a line: the first one has a prompt of its own. -/
def prompts (reads : Nat) : String := ">> " ++ String.join (List.replicate (reads - 1) ".. ")

/-- The text of some lines, without the blanks at its two ends. -/
def typedText (lines : List String) : String := trimmed (String.intercalate "\n" lines)

/-- **What a reading gives**, told from all lines ahead: the wish to leave, if the first line alone
asks for it; the text of the shortest closed beginning; or nothing, and all lines are taken. -/
def reading (lines : List String) : Reading :=
  if lines.head?.any fun line => trimmed line == "exit" || trimmed line == "quit" then
    ⟨some .leave, prompts 1, lines.tail⟩
  else
    match closing? 0 lines with
    | some front => ⟨some (.text (typedText front)), prompts front.length, lines.drop front.length⟩
    | none => ⟨none, prompts (lines.length + 1), []⟩

theorem reading_cons (line : String) (rest : List String) : reading (line :: rest) =
    if asksToLeave line then ⟨some .leave, prompts 1, rest⟩
    else
      match closing? 0 (line :: rest) with
      | some front =>
        ⟨some (.text (typedText front)), prompts front.length, (line :: rest).drop front.length⟩
      | none => ⟨none, prompts ((line :: rest).length + 1), []⟩ := rfl

/-- A line that is not asked whether it wants to leave is counted. -/
theorem Draft.add_of_stays {d : Draft} {line : String}
    (h : d.lines.isEmpty = true → asksToLeave line = false) : d.add line =
      if d.depth + balance line ≤ 0 then .inr (.text (typedText (d.lines ++ [line])))
      else .inl ⟨d.lines ++ [line], d.depth + balance line⟩ := by
  have hstays : ¬ (d.lines.isEmpty && asksToLeave line) = true := by
    rw [Bool.and_eq_true]
    rintro ⟨hempty, hleave⟩
    exact Bool.false_ne_true ((h hempty).symm.trans hleave)
  rw [add, if_neg hstays]
  rfl

/-- **A draft with lines takes the lines up to the first one behind which no brace is open.** -/
theorem read_further (d : Draft) (hd : d.lines ≠ []) (lines : List String) : read d lines =
    match closing? d.depth lines with
    | some front => ⟨some (.text (typedText (d.lines ++ front))),
        String.join (List.replicate front.length ".. "), lines.drop front.length⟩
    | none => ⟨none, String.join (List.replicate (lines.length + 1) ".. "), []⟩ := by
  have hprompt : ∀ d : Draft, d.lines ≠ [] → d.prompt = ".. " := by
    intro d hd
    rw [Draft.prompt, if_neg (by simpa using hd)]
  induction lines generalizing d with
  | nil =>
    rw [read, closing?_nil, hprompt d hd]
    rfl
  | cons line rest ih =>
    have hstays := @Draft.add_of_stays d line fun h => absurd (List.isEmpty_iff.mp h) hd
    rw [read, hstays, closing?_cons, hprompt d hd]
    by_cases h : d.depth + balance line ≤ 0
    · simp only [if_pos h]
      rfl
    · simp only [if_neg h]
      rw [ih _ (List.append_ne_nil_of_right_ne_nil _ (List.cons_ne_nil _ _))]
      cases closing? (d.depth + balance line) rest with
      | none => simp [List.replicate_succ]
      | some front => simp [List.replicate_succ]

/-- **A reading takes the shortest closed beginning of the lines ahead.** -/
theorem read_eq (lines : List String) : read .empty lines = reading lines := by
  cases lines with
  | nil => rfl
  | cons line rest =>
    by_cases hleave : asksToLeave line = true
    · have hadd : Draft.empty.add line = .inr .leave := by
        rw [Draft.add, if_pos (by simpa [Draft.empty] using hleave)]
      rw [read, hadd, reading_cons, if_pos hleave]
      rfl
    · have hstays : Draft.empty.add line =
          if 0 + balance line ≤ 0 then .inr (.text (typedText [line]))
          else .inl ⟨[line], 0 + balance line⟩ :=
        Draft.add_of_stays fun _ => Bool.eq_false_iff.mpr hleave
      rw [read, hstays, reading_cons, if_neg hleave, closing?_cons]
      by_cases h : 0 + balance line ≤ 0
      · simp only [if_pos h]
        rfl
      · simp only [if_neg h]
        rw [read_further _ (List.cons_ne_nil _ _)]
        cases closing? (0 + balance line) rest with
        | none => rfl
        | some front => rfl

/-- Inside an open entry, asking to leave is a line like any other. -/
example : reading ["fn() \x7b", "quit", "\x7d", "quit"] =
    ⟨some (.text "fn() \x7b\nquit\n\x7d"), ">> .. .. ", ["quit"]⟩ := by rfl

/-! ## Readings one behind the other -/

/-- A reading leaves the end of the lines ahead. -/
theorem rest_suffix (d : Draft) (lines : List String) : (read d lines).rest <:+ lines := by
  induction lines generalizing d with
  | nil => exact List.suffix_refl _
  | cons line rest ih =>
    rw [read]
    cases d.add line with
    | inr entry => exact List.suffix_cons _ _
    | inl longer => exact (ih longer).trans (List.suffix_cons _ _)

/-- When the lines run out, none is left. -/
theorem rest_of_none {d : Draft} {lines : List String} (h : (read d lines).typed? = none) :
    (read d lines).rest = [] := by
  induction lines generalizing d with
  | nil => rfl
  | cons line rest ih =>
    rw [read] at h ⊢
    cases hadd : d.add line with
    | inr entry =>
      rw [hadd] at h
      contradiction
    | inl longer =>
      rw [hadd] at h
      exact ih h

/-- The lines that some readings leave. -/
def leftAfter (lines : List String) : Nat → List String
  | 0 => lines
  | n + 1 => (read .empty (leftAfter lines n)).rest

/-- The lines that a reading takes. -/
def taken (lines : List String) : List String :=
  lines.take (lines.length - (read .empty lines).rest.length)

theorem taken_append_rest (lines : List String) :
    taken lines ++ (read .empty lines).rest = lines := by
  obtain ⟨front, hfront⟩ := rest_suffix .empty lines
  have hlength : lines.length - (read .empty lines).rest.length = front.length := by
    rw [← congrArg List.length hfront, List.length_append, Nat.add_sub_cancel]
  have htaken : taken lines = front := by
    rw [taken, hlength, ← hfront, List.take_left]
  rw [htaken, hfront]

/-- A reading takes a line, if there is one. -/
theorem length_rest_le (lines : List String) :
    (read .empty lines).rest.length ≤ lines.length - 1 := by
  cases h : (read .empty lines).typed? with
  | none =>
    rw [rest_of_none h]
    exact Nat.zero_le _
  | some entry => exact Nat.le_sub_one_of_lt (length_rest_lt h)

theorem length_leftAfter_le (lines : List String) (n : Nat) :
    (leftAfter lines n).length ≤ lines.length - n := by
  induction n with
  | zero => exact Nat.le_refl _
  | succ n ih =>
    have hstep := length_rest_le (leftAfter lines n)
    rw [leftAfter]
    omega

/-- What some readings take, in order, stands before what they leave. -/
theorem flatMap_taken_append_leftAfter (lines : List String) (n : Nat) :
    ((List.range n).flatMap fun i => taken (leftAfter lines i)) ++ leftAfter lines n = lines := by
  induction n with
  | zero => rfl
  | succ n ih =>
    rw [List.range_succ, List.flatMap_append, List.flatMap_singleton, List.append_assoc, leftAfter,
      taken_append_rest]
    exact ih

/-- **Readings share out the lines by the balance of braces.**  Each takes what the braces of the
lines ahead tell; together they take the lines in order, each once, and as many readings as there
are lines leave none. -/
theorem read_partitions (lines : List String) (n : Nat) :
    read .empty (leftAfter lines n) = reading (leftAfter lines n) ∧
      ((List.range n).flatMap fun i => taken (leftAfter lines i)) ++ leftAfter lines n = lines ∧
      leftAfter lines lines.length = [] := by
  refine ⟨read_eq _, flatMap_taken_append_leftAfter lines n, ?_⟩
  have hle := length_leftAfter_le lines lines.length
  rw [Nat.sub_self] at hle
  exact List.eq_nil_of_length_eq_zero (Nat.le_zero.mp hle)

end MonkeyFrontend.Session
