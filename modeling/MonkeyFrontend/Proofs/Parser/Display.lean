import MonkeyFrontend.Proofs.Parser.Consistency
import MonkeyFrontend.Proofs.Parser.Reports
import MonkeyFrontend.Proofs.Tree.Alphabet

/-! # What is seen of a text

A text may hold any characters, and those that are in no token of the language are tokens of their
own.  Nothing of these is seen: the canonical text of the tree is made of tokens of the language,
and a diagnostic names kinds, and no text but that of a number.  So each of them is one line
(`Parser.display_parse`).
-/
namespace MonkeyFrontend

/-- The printable characters of ASCII. -/
def isPrintableAscii (c : Char) : Bool := decide (' ' ≤ c) && decide (c ≤ '~')

/-- The characters that end a line, in any convention. -/
def lineBreaks : List Char :=
  ['\n', '\r', '\x0b', '\x0c', '\x1c', '\x1d', '\x1e', '\x85', '\u2028', '\u2029']

/-- Whether a text has only printable characters of ASCII. -/
def Printable (s : String) : Prop := ∀ c ∈ s.toList, isPrintableAscii c

theorem isPrintableAscii_of_range {low high c : Char} (h : low ≤ c ∧ c ≤ high)
    (hlow : ' ' ≤ low) (hhigh : high ≤ '~') : isPrintableAscii c := by
  rw [isPrintableAscii, Bool.and_eq_true, decide_eq_true_eq, decide_eq_true_eq]
  exact ⟨Char.le_trans hlow h.1, Char.le_trans h.2 hhigh⟩

theorem isPrintableAscii_of_isDigit {c : Char} (h : isDigit c) : isPrintableAscii c := by
  rw [isDigit, Bool.and_eq_true, decide_eq_true_eq, decide_eq_true_eq] at h
  exact isPrintableAscii_of_range h (by decide) (by decide)

theorem isPrintableAscii_of_isLetter {c : Char} (h : isLetter c) : isPrintableAscii c := by
  simp only [isLetter, Bool.or_eq_true, Bool.and_eq_true, decide_eq_true_eq] at h
  rcases h with (h | h) | rfl
  · exact isPrintableAscii_of_range h (by decide) (by decide)
  · exact isPrintableAscii_of_range h (by decide) (by decide)
  · rfl

theorem isPrintableAscii_of_isCanonical {c : Char} (h : isCanonical c) : isPrintableAscii c := by
  have hsigns : [' ', '+', '-', '*', '/', '<', '>', '=', '!', ';', ','].all isPrintableAscii := rfl
  simp only [isCanonical, isPlain, Bool.or_eq_true, decide_eq_true_eq,
    List.contains_iff_mem] at h
  rcases h with (((h | h) | h) | rfl) | rfl
  · exact isPrintableAscii_of_isLetter h
  · exact isPrintableAscii_of_isDigit h
  · exact List.all_eq_true.mp hsigns c h
  · rfl
  · rfl

namespace Printable

variable {s t : String}

/-- A text that is known is looked through. -/
theorem of_all (h : s.toList.all isPrintableAscii) : Printable s := List.all_eq_true.mp h

theorem append (h : Printable s) (h' : Printable t) : Printable (s ++ t) := by
  rw [Printable, String.toList_append]
  exact List.forall_mem_append.mpr ⟨h, h'⟩

/-- A printable text is one line. -/
theorem one_line (h : Printable s) : ∀ c ∈ lineBreaks, c ∉ s.toList := by
  have hnone : lineBreaks.all fun c => !isPrintableAscii c := rfl
  intro c hc hmem
  have hbreak := List.all_eq_true.mp hnone c hc
  rw [h c hmem] at hbreak
  contradiction

end Printable

theorem Kind.printable_text (k : Kind) : Printable k.text := by
  cases k <;> exact .of_all rfl

/-- The wording of a diagnostic is printable if the number in it is. -/
theorem Diagnostic.printable_message {d : Diagnostic}
    (h : ∀ w, d = .badInteger w → Printable w) : Printable d.message := by
  cases d with
  | unexpected wanted found =>
    have hbefore : Printable "expected next token to be " := .of_all rfl
    have hgot : Printable ", got " := .of_all rfl
    have hbehind : Printable " instead" := .of_all rfl
    exact (((hbefore.append wanted.printable_text).append hgot).append
      found.printable_text).append hbehind
  | noExpression found =>
    have hbefore : Printable "no prefix parse function for " := .of_all rfl
    have hbehind : Printable " found" := .of_all rfl
    exact (hbefore.append found.printable_text).append hbehind
  | badInteger w =>
    have hbefore : Printable "could not parse " := .of_all rfl
    have hbehind : Printable " as integer" := .of_all rfl
    exact (hbefore.append (h w rfl)).append hbehind

namespace Parser

/-- The diagnostics of a text are printable. -/
theorem printable_parse (source : String) :
    ∀ d ∈ (parse source).2, Printable d.message := by
  obtain ⟨t, hrun⟩ := parse_eq_iff_run.mp (rfl : parse source = ((parse source).1, _))
  intro d hd
  refine Diagnostic.printable_message fun w hw => ?_
  -- a number in a diagnostic is the text of a token
  obtain ⟨u, hu, hholds⟩ := hrun.reported d hd
  rw [hw] at hholds
  have hspelled := (TokenStream.spelled_ofSource source).of_ahead hu
  have hdigits := (TokenStream.long_of_badInteger hspelled hholds).1
  exact fun c hc => isPrintableAscii_of_isDigit (hdigits c hc)

/-- **What is seen of a text**: a canonical text with its parentheses matched and printable
diagnostics, each a single line. -/
structure Displayed (p : Program) (ds : List Diagnostic) : Prop where
  alphabet : ∀ c ∈ p.render.toList, isLetter c ∨ isDigit c ∨
    c ∈ [' ', '+', '-', '*', '/', '<', '>', '=', '!', ';', ',', '(', ')']
  closed : p.render.toList.count '(' = p.render.toList.count ')'
  nested : ∀ cs, cs <+: p.render.toList → cs.count ')' ≤ cs.count '('
  message_printable : ∀ d ∈ ds, ∀ c ∈ d.message.toList, ' ' ≤ c ∧ c ≤ '~'
  one_line : ∀ line ∈ p.render :: ds.map Diagnostic.message, ∀ c ∈ lineBreaks, c ∉ line.toList

/-- **Characters that are in no token of the language are never seen.** -/
theorem display_parse (source : String) : Displayed (parse source).1 (parse source).2 := by
  have htidy := Program.tidy_render (sound_parse source)
  have hcount : ∀ l, total parenthesis l = l.count '(' - l.count ')' :=
    total_eq_count (by decide) fun _ => rfl
  have hmessages := printable_parse source
  constructor
  case alphabet =>
    intro c hc
    have hcanonical := htidy.alphabet c hc
    simp only [isCanonical, isPlain, Bool.or_eq_true, decide_eq_true_eq, List.contains_iff_mem,
      List.mem_cons, List.not_mem_nil, or_false] at hcanonical ⊢
    tauto
  case closed =>
    have htotal := htidy.closed
    rw [hcount] at htotal
    omega
  case nested =>
    intro cs hcs
    have htotal := htidy.nested cs hcs
    rw [hcount] at htotal
    omega
  case message_printable =>
    intro d hd c hc
    have hprintable := hmessages d hd c hc
    rwa [isPrintableAscii, Bool.and_eq_true, decide_eq_true_eq, decide_eq_true_eq] at hprintable
  case one_line =>
    have hrender : Printable (parse source).1.render :=
      fun c hc => isPrintableAscii_of_isCanonical (htidy.alphabet c hc)
    refine List.forall_mem_cons.mpr ⟨hrender.one_line, List.forall_mem_map.mpr fun d hd => ?_⟩
    exact (hmessages d hd).one_line

end Parser
end MonkeyFrontend
