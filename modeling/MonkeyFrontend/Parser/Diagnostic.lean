import MonkeyFrontend.Token.Kind

/-! # Diagnostics

What a parser reports about a text that is no program.  Each report is one line.
-/
namespace MonkeyFrontend

/-- A report about one place of a text. -/
inductive Diagnostic where
  /-- The next token is not of the kind that the construct needs. -/
  | unexpected (wanted found : Kind)
  /-- No expression begins with a token of this kind. -/
  | noExpression (found : Kind)
  /-- A number cannot be converted. -/
  | badInteger (literal : String)
deriving DecidableEq, Repr

namespace Diagnostic

/-- The wording of a report. -/
def message : Diagnostic → String
  | unexpected wanted found =>
    "expected next token to be " ++ wanted.text ++ ", got " ++ found.text ++ " instead"
  | noExpression found => "no prefix parse function for " ++ found.text ++ " found"
  | badInteger literal => "could not parse " ++ literal ++ " as integer"

end Diagnostic

end MonkeyFrontend
