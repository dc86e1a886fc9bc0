import MonkeyFrontend.Parser.Descent
import MonkeyFrontend.Token.Stream
import MonkeyFrontend.Session.Entry
import MonkeyFrontend.Tree.Render

/-! # Sessions

A session answers each entry in turn.  What an answer says depends on its entry alone, but
for the mode in which also the tokens are listed.
-/
namespace MonkeyFrontend.Session

/-- The first line of a session. -/
def greeting : String := "Monkey REPL. Type 'exit' or 'quit' to leave.\n"

/-- The last line of a session. -/
def farewell : String := "Exiting Monkey REPL.\n"

/-- The line for one token in the mode that lists them. -/
def tokenLine (t : Token) : String :=
  "[token] >>> " ++ t.kind.text ++ " " ++ Text.quote t.literal ++ "\n"

/-- The line for one diagnostic. -/
def diagnosticLine (d : Diagnostic) : String := "\t" ++ d.message ++ "\n"

/-- The answer to a text: its tokens if they are asked for, and then its canonical form or
what is wrong with it. -/
def answer (verbose : Bool) (source : String) : String :=
  let parsed := Parser.parse source
  (if verbose then String.join ((tokenize source).map tokenLine) else "")
    ++ (if parsed.2.isEmpty then "[ok] >>> " ++ parsed.1.render ++ "\n"
      else "[error] >>> parser errors:\n" ++ String.join (parsed.2.map diagnosticLine))

/-- Whether a text asks to change the mode, in letters of either case. -/
def asksForMode (s : String) : Bool := s.toList.map Char.toLower == "verbose-mode".toList

/-- The line that tells the mode. -/
def modeLine (verbose : Bool) : String :=
  "[mode] >>> Verbose mode " ++ (if verbose then "ON" else "OFF") ++ "\n"

/-- The mode after a text. -/
def modeAfter (verbose : Bool) (s : String) : Bool := if asksForMode s then !verbose else verbose

/-- What a session says to a text: nothing if it is empty. -/
def respond (verbose : Bool) (s : String) : String :=
  if s.isEmpty then ""
  else if asksForMode s then modeLine (!verbose)
  else answer verbose s

/-- What a session says from its first prompt on. -/
def converse (verbose : Bool) (lines : List String) : String :=
  match _h : (read .empty lines).typed? with
  | none => (read .empty lines).prompts ++ "\n" ++ farewell
  | some .leave => (read .empty lines).prompts ++ farewell
  | some (.text s) =>
    (read .empty lines).prompts ++ respond verbose s
      ++ converse (modeAfter verbose s) (read .empty lines).rest
termination_by lines.length
decreasing_by exact length_rest_lt _h

/-- A whole session. -/
def run (verbose : Bool) (lines : List String) : String := greeting ++ converse verbose lines

end MonkeyFrontend.Session
