import MonkeyFrontend.Proofs.Parser.Completeness
import MonkeyFrontend.Proofs.Parser.Soundness
import MonkeyFrontend.Proofs.Parser.Walk

/-! # The parser reads exactly its grammar

A text is parsed without a diagnostic to a program if and only if the grammar derives this
program from the tokens of the text (`parse_eq_iff_isProgram`).
-/
namespace MonkeyFrontend

open TokenSupply

namespace TokenStream

/-- The tokens of a text are spelled as their kinds say. -/
theorem spelled_ofSource (source : String) : (ofSource source).Spelled :=
  (cuts_ofSource source).spells

end TokenStream

namespace Parser

/-- Parsing a text is reading the statements of its tokens. -/
theorem parse_eq_iff_run {source : String} {p : Program} {ds : List Diagnostic} :
    parse source = (p, ds) ↔
      ∃ t, Run (.statements .eof) (TokenStream.ofSource source) p.statements ds t := by
  have hmirrors := mirrors_program Window.corresponds (Window.ofSource source)
  have hstream : (Window.ofSource source).toStream = TokenStream.ofSource source :=
    Window.toStream_ofCursor _
  rw [← hstream]
  constructor
  · intro h
    obtain ⟨rfl, rfl⟩ := Prod.mk.inj h
    refine ⟨(program (Window.ofSource source).toStream).stream, ?_⟩
    rw [← hmirrors.value, ← hmirrors.found]
    exact run_read (.statements .eof) _
  · rintro ⟨t, hrun⟩
    obtain ⟨hvalue, hfound, _⟩ := (run_read (.statements .eof) _).unique hrun
    exact Prod.ext (hmirrors.value.symm.trans (congrArg Program.mk hvalue))
      (hmirrors.found.symm.trans hfound)

/-- Parsing a text without a diagnostic is deriving its tokens. -/
theorem parse_eq_iff_derives {source : String} {p : Program} :
    parse source = (p, []) ↔
      Grammar.Derives .statements (TokenStream.ofSource source).ahead p.statements [] := by
  have hspelled := TokenStream.spelled_ofSource source
  rw [parse_eq_iff_run]
  constructor
  · rintro ⟨t, hrun⟩
    obtain ⟨hderives, hend⟩ := hrun.derived rfl hspelled
    rw [(hspelled.of_ahead hrun.ahead).ahead_eq_nil (hend.elim id id)] at hderives
    exact hderives
  · intro hderives
    exact ⟨_, hderives.read hspelled .eof (Or.inr rfl) (by rintro t ⟨⟩)⟩

/-- **The parser accepts exactly its grammar**, and builds the tree of the derivation. -/
theorem parse_eq_iff_isProgram (source : String) (p : Program) :
    parse source = (p, []) ↔ Grammar.IsProgram (tokenize source).dropLast p := by
  have htokens : (tokenize source).dropLast = (TokenStream.ofSource source).ahead :=
    List.dropLast_concat
  rw [parse_eq_iff_derives, htokens]
  rfl

end Parser
end MonkeyFrontend
