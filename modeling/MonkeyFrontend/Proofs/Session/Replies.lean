import MonkeyFrontend.Check.Report
import MonkeyFrontend.Proofs.Text.Quoted
import MonkeyFrontend.Proofs.Text.Wording
import MonkeyFrontend.Session.Run

/-! # A session is its replies, one behind the other

A session hands the mode from one entry to the next and keeps reading until it is told to leave or
the lines run out.  Nothing else is handed on: what it shows is the greeting, for every turn the
prompts and a reply, and what ends it (`transcript_run`).  The reply of a turn depends on its text
and on the mode, and the mode only on how many of the earlier turns asked to change it; what the
reply says of a text is what a check of the same text says of it.  All that a session shows besides
is written out in the statements: the greeting, the last line, the line that tells the mode and the
lines for the tokens.

The induction follows the recursion by which a session reads its turns.  `modeAt_cons` carries it:
the mode some turns later is that mode counted from the second turn on.
-/
namespace MonkeyFrontend.Session

/-! ## Turns -/

/-- A text that was typed, and the prompts shown on the way. -/
structure Turn where
  prompts : String
  text : String

/-- The turns of a session, and the reading that ended it. -/
def turns (lines : List String) : List Turn × Reading :=
  match _h : (read .empty lines).typed? with
  | none => ([], read .empty lines)
  | some .leave => ([], read .empty lines)
  | some (.text s) =>
    let later := turns (read .empty lines).rest
    (⟨(read .empty lines).prompts, s⟩ :: later.1, later.2)
termination_by lines.length
decreasing_by exact length_rest_lt _h

variable {lines : List String} {s : String}

theorem turns_of_none (h : (read .empty lines).typed? = none) :
    turns lines = ([], read .empty lines) := by
  rw [turns]
  split <;> simp_all

theorem turns_of_leave (h : (read .empty lines).typed? = some .leave) :
    turns lines = ([], read .empty lines) := by
  rw [turns]
  split <;> simp_all

theorem turns_of_text (h : (read .empty lines).typed? = some (.text s)) :
    turns lines = (⟨(read .empty lines).prompts, s⟩ :: (turns (read .empty lines).rest).1,
      (turns (read .empty lines).rest).2) := by
  rw [turns]
  split <;> simp_all

/-- The turns are the texts among the entries, and the last reading gives the last entry. -/
theorem entries_eq_turns (lines : List String) : (entries lines).1 =
    (turns lines).1.map (fun t => some (.text t.text)) ++ [(turns lines).2.typed?] := by
  induction lines using turns.induct with
  | case1 lines h => rw [entries_of_none h, turns_of_none h, h]; rfl
  | case2 lines h => rw [entries_of_leave h, turns_of_leave h, h]; rfl
  | case3 lines s h ih => rw [entries_of_text h, turns_of_text h, ih]; rfl

/-- A session ends where the lines run out or where it is told to leave. -/
theorem typed?_last (lines : List String) :
    (turns lines).2.typed? = none ∨ (turns lines).2.typed? = some .leave := by
  induction lines using turns.induct with
  | case1 lines h => rw [turns_of_none h]; exact Or.inl h
  | case2 lines h => rw [turns_of_leave h]; exact Or.inr h
  | case3 lines s h ih => rw [turns_of_text h]; exact ih

/-- Every turn takes a line. -/
theorem length_turns_le (lines : List String) : (turns lines).1.length ≤ lines.length := by
  induction lines using turns.induct with
  | case1 lines h => rw [turns_of_none h]; exact Nat.zero_le _
  | case2 lines h => rw [turns_of_leave h]; exact Nat.zero_le _
  | case3 lines s h ih =>
    rw [turns_of_text h]
    exact Nat.lt_of_le_of_lt ih (length_rest_lt h)

/-! ## The mode -/

/-- A text asks to change the mode when its small letters are these words. -/
theorem asksForMode_eq (s : String) : asksForMode s = (s.toLower == "verbose-mode") := by
  have hlower : s.toLower = s.map Char.toLower := rfl
  rw [Bool.eq_iff_iff, asksForMode, beq_iff_eq, beq_iff_eq, hlower, ← String.toList_map,
    String.toList_inj]

theorem asksForMode_iff {s : String} : asksForMode s ↔ s.toLower = "verbose-mode" := by
  rw [asksForMode_eq, beq_iff_eq]

/-- The line that tells of the other mode. -/
theorem modeLine_not (verbose : Bool) : modeLine (!verbose) =
    "[mode] >>> Verbose mode " ++ (if verbose then "OFF" else "ON") ++ "\n" := by
  cases verbose with
  | false => rfl
  | true => rfl

/-- How many turns ask to change the mode. -/
def switches (ts : List Turn) : Nat := ts.countP fun t => t.text.toLower == "verbose-mode"

/-- **The mode behind some turns**: the first one, changed once for each turn that asks for it. -/
def modeAt (verbose : Bool) (ts : List Turn) : Bool := verbose ^^ (switches ts % 2 == 1)

theorem modeAt_nil (verbose : Bool) : modeAt verbose [] = verbose := Bool.xor_false verbose

/-- The first of some turns changes the mode for those behind it. -/
theorem modeAt_cons (verbose : Bool) (t : Turn) (ts : List Turn) :
    modeAt verbose (t :: ts) = modeAt (modeAfter verbose t.text) ts := by
  unfold modeAt modeAfter
  rw [asksForMode_eq]
  by_cases h : t.text.toLower == "verbose-mode"
  · have hcount : switches (t :: ts) = switches ts + 1 :=
      List.countP_cons_of_pos h
    have hparity : ((switches ts + 1) % 2 == 1) = !(switches ts % 2 == 1) := by
      rcases Nat.mod_two_eq_zero_or_one (switches ts) with h | h
      · rw [Nat.add_mod, h]; rfl
      · rw [Nat.add_mod, h]; rfl
    rw [hcount, hparity, if_pos h, Bool.xor_not, Bool.not_xor]
  · have hcount : switches (t :: ts) = switches ts :=
      List.countP_cons_of_neg h
    rw [hcount, if_neg h]

/-! ## What is shown -/

/-- What is shown of some turns: the prompts of each, and the reply in the mode it finds. -/
def conversation (verbose : Bool) (ts : List Turn) : String :=
  String.join (ts.mapIdx fun i t => t.prompts ++ respond (modeAt verbose (ts.take i)) t.text)

theorem conversation_cons (verbose : Bool) (t : Turn) (ts : List Turn) :
    conversation verbose (t :: ts) =
      t.prompts ++ respond verbose t.text ++ conversation (modeAfter verbose t.text) ts := by
  rw [conversation, List.mapIdx_cons, String.join_cons, List.take_zero, modeAt_nil, conversation]
  simp only [List.take_succ_cons, modeAt_cons]

/-- What is shown at the end: the prompts of the last reading, a new line if the lines ran out, and
the last line. -/
def closing (last : Reading) : String :=
  last.prompts ++ (if last.typed? = none then "\n" else "") ++ "Exiting Monkey REPL.\n"

theorem converse_of_none (verbose : Bool) (h : (read .empty lines).typed? = none) :
    converse verbose lines = (read .empty lines).prompts ++ "\n" ++ farewell := by
  rw [converse]
  split <;> simp_all

theorem converse_of_leave (verbose : Bool) (h : (read .empty lines).typed? = some .leave) :
    converse verbose lines = (read .empty lines).prompts ++ farewell := by
  rw [converse]
  split <;> simp_all

theorem converse_of_text (verbose : Bool) (h : (read .empty lines).typed? = some (.text s)) :
    converse verbose lines = (read .empty lines).prompts ++ respond verbose s ++
      converse (modeAfter verbose s) (read .empty lines).rest := by
  rw [converse]
  split <;> simp_all

/-- **A session shows its turns, each in the mode that it finds, and then its end.** -/
theorem converse_eq (verbose : Bool) (lines : List String) :
    converse verbose lines = conversation verbose (turns lines).1 ++ closing (turns lines).2 := by
  induction lines using turns.induct generalizing verbose with
  | case1 lines h =>
    rw [converse_of_none verbose h, turns_of_none h, closing, if_pos h]
    exact String.empty_append.symm
  | case2 lines h =>
    have hnot : (read .empty lines).typed? ≠ none := by rw [h]; nofun
    rw [converse_of_leave verbose h, turns_of_leave h, closing, if_neg hnot, String.append_empty]
    exact String.empty_append.symm
  | case3 lines s h ih =>
    rw [converse_of_text verbose h, ih, ← String.append_assoc, turns_of_text h, conversation_cons]

/-! ## What a reply says -/

/-- **How what is told of a text agrees with a check of it**, with no setting chosen and whatever
files there are: the same tree, or the same diagnostics. -/
structure Agrees (source told : String) (d : Directory) (r : Report) : Prop where
  checked : Check.run d {} (.text source) = .ok r
  /-- A canonical form is told exactly when the check shows it and finds nothing wrong. -/
  fine : ∀ form, told = "[ok] >>> " ++ form ++ "\n" ↔ r.status = 0 ∧ r.stdout = form ++ "\n"
  /-- Otherwise the lines are told in which the check says what is wrong. -/
  wrong : r.status ≠ 0 → told = "[error] >>> parser errors:\n" ++ r.stderr

/-- What is told of a text, in either mode. -/
def told (source : String) : String :=
  if (Parser.parse source).2.isEmpty then "[ok] >>> " ++ (Parser.parse source).1.render ++ "\n"
  else "[error] >>> parser errors:\n" ++ String.join ((Parser.parse source).2.map diagnosticLine)

/-- The lines for the tokens of a text, in the mode that lists them. -/
def listing (verbose : Bool) (source : String) : String :=
  if verbose then
    String.join ((tokenize source).map fun t =>
      "[token] >>> " ++ t.kind.text ++ " " ++ Text.quote t.literal ++ "\n")
  else ""

theorem answer_eq (verbose : Bool) (source : String) :
    answer verbose source = listing verbose source ++ told source := rfl

/-- A canonical form is not told as what is wrong. -/
theorem ok_ne_error (form lines : String) :
    "[error] >>> parser errors:\n" ++ lines ≠ "[ok] >>> " ++ form ++ "\n" := by
  intro h
  have hchars := congrArg (fun text => text.toList[1]?) h
  simp at hchars

/-- What a check of a text leaves behind when no setting is chosen. -/
theorem run_text (d : Directory) (source : String) : Check.run d {} (.text source) = .ok
    ⟨if (Parser.parse source).2.isEmpty then 0 else 1, (Parser.parse source).1.render ++ "\n",
      if (Parser.parse source).2.isEmpty then ""
      else "" ++ String.join ((Parser.parse source).2.map diagnosticLine), d⟩ := rfl

/-- **What is told of a text is what a check of it says.** -/
theorem agrees_told (source : String) (d : Directory) : ∃ r, Agrees source (told source) d r := by
  by_cases hfine : (Parser.parse source).2.isEmpty
  · have hrun := run_text d source
    rw [if_pos hfine, if_pos hfine] at hrun
    refine ⟨_, hrun, fun form => ?_, fun h => absurd rfl h⟩
    rw [told, if_pos hfine]
    constructor
    · intro h
      exact ⟨rfl, congrArg (· ++ "\n") (between_inj h)⟩
    · rintro ⟨-, h⟩
      rw [(String.append_left_inj "\n").mp h]
  · have hrun := run_text d source
    rw [if_neg hfine, if_neg hfine, String.empty_append] at hrun
    refine ⟨_, hrun, fun form => ?_, fun _ => ?_⟩
    · rw [told, if_neg hfine]
      constructor
      · exact fun h => absurd h (ok_ne_error _ _)
      · rintro ⟨h, -⟩
        nomatch h
    · rw [told, if_neg hfine]

/-! ## One line for each token -/

/-- A quoted text is written on one line. -/
theorem not_mem_quote (s : String) : '\n' ∉ (Text.quote s).toList :=
  fun h => absurd (Text.isPrintable_of_mem_quote h) (by decide)

theorem count_tokenLine (t : Token) : (tokenLine t).toList.count '\n' = 1 := by
  have hkind : '\n' ∉ t.kind.text.toList := by cases t.kind <;> decide
  rw [tokenLine]
  simp only [String.toList_append, List.count_append, List.count_eq_zero.mpr hkind,
    List.count_eq_zero.mpr (not_mem_quote t.literal)]
  decide

theorem count_join (ts : List Token) :
    (String.join (ts.map tokenLine)).toList.count '\n' = ts.length := by
  induction ts with
  | nil => rfl
  | cons t ts ih =>
    rw [List.map_cons, String.join_cons, String.toList_append, List.count_append, count_tokenLine,
      ih, List.length_cons, Nat.add_comm]

/-! ## The session -/

/-- **What the reply to a text says.** -/
structure Answers (s : String) : Prop where
  empty : s = "" → ∀ verbose, respond verbose s = ""
  mode : s.toLower = "verbose-mode" → ∀ verbose, respond verbose s =
    "[mode] >>> Verbose mode " ++ (if verbose then "OFF" else "ON") ++ "\n"
  checked : s ≠ "" → s.toLower ≠ "verbose-mode" →
    ∃ told, (∀ d, ∃ r, Agrees s told d r) ∧ ∀ verbose, respond verbose s = listing verbose s ++ told
  /-- There is one line for each token. -/
  listed : (listing true s).toList.count '\n' = (tokenize s).length

theorem answers (s : String) : Answers s where
  empty h verbose := by rw [respond, h]; rfl
  mode h verbose := by
    have hmode : asksForMode s := asksForMode_iff.mpr h
    have hne : ¬ s.isEmpty := by
      intro hempty
      rw [String.isEmpty_iff.mp hempty] at hmode
      exact absurd hmode (by decide)
    rw [respond, if_neg hne, if_pos hmode]
    exact modeLine_not verbose
  checked hne hmode := by
    refine ⟨told s, agrees_told s, fun verbose => ?_⟩
    rw [respond, if_neg (mt String.isEmpty_iff.mp hne), if_neg (mt asksForMode_iff.mp hmode),
      answer_eq]
  listed := count_join (tokenize s)

/-- **What a session shows.** -/
structure Transcript (verbose : Bool) (lines : List String) : Prop where
  /-- The turns are the texts among the entries, and the last reading gives the last entry. -/
  entries : (entries lines).1 =
    (turns lines).1.map (fun t => some (.text t.text)) ++ [(turns lines).2.typed?]
  ended : (turns lines).2.typed? = none ∨ (turns lines).2.typed? = some .leave
  /-- Every turn takes a line. -/
  length_le : (turns lines).1.length ≤ lines.length
  shown : run verbose lines = "Monkey REPL. Type 'exit' or 'quit' to leave.\n" ++
    conversation verbose (turns lines).1 ++ closing (turns lines).2

/-- **A session is its replies, one behind the other**, and each of them agrees with a check of its
text. -/
theorem transcript_run (verbose : Bool) (lines : List String) :
    Transcript verbose lines ∧ ∀ s, Answers s := by
  refine ⟨⟨entries_eq_turns lines, typed?_last lines, length_turns_le lines, ?_⟩, answers⟩
  rw [run, converse_eq, String.append_assoc, greeting]

end MonkeyFrontend.Session
