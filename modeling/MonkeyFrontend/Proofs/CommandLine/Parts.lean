import Mathlib.Data.List.TakeWhile
import MonkeyFrontend.CommandLine.Request

/-! # The parts of a command line

A command line is put together from parts: switches in their long spelling, which may be cut short,
bundles of switches in their short spelling, the file to write, and values.  Each part is taken for
what it is, wherever it stands (`Part.mapM_classify`).

A value is a text that does not begin with a minus sign.  Negative numbers and texts with a blank
would do as well, unless they spell a switch.
-/
namespace MonkeyFrontend.CommandLine

namespace Switch

variable {s : Switch} {c : Char}

theorem ofLetter?_of_letter? (h : s.letter? = some c) : ofLetter? c = some s := by
  cases s <;> cases h <;> rfl

/-- A letter is neither a minus sign nor an equals sign. -/
theorem ne_of_letter? (h : s.letter? = some c) : c ≠ '-' ∧ c ≠ '=' := by
  cases s <;> cases h <;> decide

theorem long_eq (s : Switch) : ∃ cs, s.long.toList = '-' :: '-' :: cs := by
  cases s <;> exact ⟨_, rfl⟩

/-- What does not begin with a minus sign spells no switch. -/
theorem ofSpelling?_of_head {cs : List Char} (h : cs.head? ≠ some '-') : ofSpelling? cs = none := by
  have hnone : all.find? (fun s => s.long.toList == cs) = none := by
    refine List.find?_eq_none.mpr fun s _ heq => h ?_
    obtain ⟨rest, hlong⟩ := s.long_eq
    rw [← beq_iff_eq.mp heq, hlong]
    rfl
  unfold ofSpelling?
  split
  · exact absurd rfl h
  · rw [hnone]
    rfl

/-- A minus sign and two letters are no spelling. -/
theorem ofSpelling?_bundle {d : Char} (hc : c ≠ '-') (cs : List Char) :
    ofSpelling? ('-' :: c :: d :: cs) = none := by
  have hnone : all.find? (fun s => s.long.toList == '-' :: c :: d :: cs) = none := by
    refine List.find?_eq_none.mpr fun s _ heq => hc ?_
    obtain ⟨rest, hlong⟩ := s.long_eq
    rw [hlong] at heq
    exact (List.cons.inj (List.cons.inj (beq_iff_eq.mp heq)).2).1.symm
  rw [ofSpelling?, hnone]
  · rfl
  · nofun

end Switch

/-! ## Names and attached texts -/

theorem splitAtEquals_of_not_mem {cs : List Char} (h : '=' ∉ cs) :
    splitAtEquals cs = (cs, none) := by
  have hnone : cs.dropWhile (· != '=') = [] :=
    List.dropWhile_eq_nil_iff.mpr fun c hc => bne_iff_ne.mpr fun heq => h (heq ▸ hc)
  rw [splitAtEquals, hnone]

/-- The name in front of an equals sign begins like the argument, if it is not empty. -/
theorem head_splitAtEquals {cs : List Char} (h : cs.head? ≠ some '-') :
    (splitAtEquals cs).1.head? ≠ some '-' := by
  have hprefix : (splitAtEquals cs).1 <+: cs := by
    unfold splitAtEquals
    split
    · exact List.prefix_rfl
    · exact List.takeWhile_prefix _
  intro hhead
  obtain ⟨rest, hrest⟩ := hprefix
  rw [← hrest, List.head?_append, hhead] at h
  exact h rfl

/-! ## Parts -/

/-- **A part of a command line**, with what makes it one. -/
inductive Part where
  /-- A switch in its long spelling, cut behind some characters.  Behind the minus signs the first
  letter tells the switches apart. -/
  | word (s : Switch) (cut : Nat) (flag : s ≠ .out) (unique : 3 ≤ cut)
  /-- Switches in their short spellings, in one argument. -/
  | bundle (s : Switch) (more : List Switch)
      (flags : ∀ x ∈ s :: more, x ≠ .out ∧ x.letter?.isSome)
  /-- The file to write, in an argument of its own. -/
  | out (short : Bool) (path : String) (plain : path.toList.head? ≠ some '-')
  /-- The file to write, behind an equals sign.  Two minus signs would name none. -/
  | attached (path : String) (named : path ≠ "--")
  | value (text : String) (plain : text.toList.head? ≠ some '-')

/-- The letters of some switches. -/
def letters (ss : List Switch) : List Char := ss.filterMap Switch.letter?

namespace Part

/-- The arguments of a part. -/
def arguments : Part → List String
  | word s cut _ _ => [String.ofList (s.long.toList.take cut)]
  | bundle s more _ => [String.ofList ('-' :: letters (s :: more))]
  | out short path _ => [if short then "-o" else "--out", path]
  | attached path _ => ["--out=" ++ path]
  | value text _ => [text]

/-- What the arguments of a part are taken for. -/
def taken : Part → List Argument
  | word s _ _ _ => [.switch s false none]
  | bundle s [] _ => [.switch s true none]
  | bundle s more _ => [.switch s true (some (letters more))]
  | out short path _ => [.switch .out short none, .value path]
  | attached path _ => [.switch .out false (some path.toList)]
  | value text _ => [.value text]

/-- The switches in a part. -/
def switches : Part → List Switch
  | word s _ _ _ => [s]
  | bundle s more _ => s :: more
  | _ => []

/-- The file to write that a part names. -/
def out? : Part → Option String
  | out _ path _ => some path
  | attached path _ => some path
  | _ => none

/-- The value that a part is. -/
def value? : Part → Option String
  | value text _ => some text
  | _ => none

end Part

/-! ## What an argument is taken for -/

theorem classify_value {text : String} (h : text.toList.head? ≠ some '-') :
    classify text = .ok (.value text) := by
  have hname := Switch.ofSpelling?_of_head (head_splitAtEquals h)
  simp only [classify, Switch.ofSpelling?_of_head h, hname]
  split
  · contradiction
  · contradiction
  · split
    · rename_i heq
      exact absurd (congrArg List.head? heq) h
    · rename_i heq
      exact absurd (congrArg List.head? heq) h
    · rfl

/-- The long spelling of a switch may be cut behind its first letter. -/
theorem classify_word (s : Switch) {cut : Nat} (h : 3 ≤ cut) :
    classify (String.ofList (s.long.toList.take cut)) = .ok (.switch s false none) := by
  have hok : ∀ {x : Except UsageError Argument} {a : Argument},
      x.toOption = some a → x = .ok a := by
    rintro (e | a) b h
    · nomatch h
    · rw [Option.some.inj h]
  have hcut : ∀ s : Switch, ∀ n : Fin 10, 3 ≤ n.val →
      (classify (String.ofList (s.long.toList.take n))).toOption = some (.switch s false none) := by
    intro s
    cases s <;> decide +kernel
  by_cases hle : cut < 10
  · exact hok (hcut s ⟨cut, hle⟩ h)
  · have hlength : s.long.toList.length ≤ 9 := by cases s <;> decide
    have hwhole : s.long.toList.take cut = s.long.toList.take 9 := by
      rw [List.take_of_length_le (by omega), List.take_of_length_le hlength]
    rw [hwhole]
    exact hok (hcut s 9 (by decide))

theorem classify_attached (path : String) :
    classify ("--out=" ++ path) = .ok (.switch .out false (some path.toList)) := by
  have hchars : ("--out=" ++ path).toList = '-' :: '-' :: 'o' :: 'u' :: 't' :: '=' :: path.toList :=
    String.toList_append
  simp only [classify, hchars]
  rfl

theorem letters_cons {s : Switch} {c : Char} (h : s.letter? = some c) (ss : List Switch) :
    letters (s :: ss) = c :: letters ss := List.filterMap_cons_some h

/-- A bundle is a switch with the other letters attached, unless there are none. -/
theorem classify_bundle {s : Switch} {more : List Switch}
    (flags : ∀ x ∈ s :: more, x ≠ .out ∧ x.letter?.isSome) :
    [String.ofList ('-' :: letters (s :: more))].mapM classify =
      .ok (Part.bundle s more flags).taken := by
  obtain ⟨c, hc⟩ := Option.isSome_iff_exists.mp (flags s List.mem_cons_self).2
  obtain ⟨hminus, hequals⟩ := Switch.ne_of_letter? hc
  have hletter := Switch.ofLetter?_of_letter? hc
  cases more with
  | nil =>
    have hclassify : classify (String.ofList ['-', c]) = .ok (.switch s true none) := by
      simp [classify, Switch.ofSpelling?, hletter]
    rw [letters_cons hc, letters, List.filterMap_nil, List.mapM_cons, hclassify]
    rfl
  | cons x more =>
    obtain ⟨d, hd⟩ :=
      Option.isSome_iff_exists.mp (flags x (List.mem_cons_of_mem _ List.mem_cons_self)).2
    have hplain : '=' ∉ '-' :: c :: letters (x :: more) := by
      have hmore : '=' ∉ letters (x :: more) := by
        intro hmem
        obtain ⟨y, -, hy⟩ := List.mem_filterMap.mp hmem
        exact (Switch.ne_of_letter? hy).2 rfl
      simp [hmore, hequals.symm]
    have hclassify : classify (String.ofList ('-' :: c :: letters (x :: more))) =
        .ok (.switch s true (some (letters (x :: more)))) := by
      have hspelling := Switch.ofSpelling?_bundle (d := d) hminus (letters more)
      rw [← letters_cons hd] at hspelling
      simp [classify, hspelling, splitAtEquals_of_not_mem hplain, hminus, classifyShort, hletter]
    rw [letters_cons hc, List.mapM_cons, hclassify]
    rfl

/-- **Every part is taken for what it is.** -/
theorem Part.mapM_classify (p : Part) : p.arguments.mapM classify = .ok p.taken := by
  cases p with
  | word s cut flag unique =>
    rw [arguments, List.mapM_cons, classify_word s unique]
    rfl
  | bundle s more flags => exact classify_bundle flags
  | out short path plain =>
    have hname : classify (if short then "-o" else "--out") = .ok (.switch .out short none) := by
      cases short <;> rfl
    rw [arguments, List.mapM_cons, List.mapM_cons, hname, classify_value plain]
    rfl
  | attached path named =>
    rw [arguments, List.mapM_cons, classify_attached]
    rfl
  | value text plain =>
    rw [arguments, List.mapM_cons, classify_value plain]
    rfl

end MonkeyFrontend.CommandLine
