/-! # Switches

The switches that a command line may hold.  Each has a long spelling and most have a short
one; one of them takes a value.
-/
namespace MonkeyFrontend.CommandLine

/-- A switch. -/
inductive Switch where
  | help
  | string
  | tokens
  | json
  | out
  | pretty
  | repl
  | verbose
deriving DecidableEq, Repr

namespace Switch

/-- Every switch, in the order in which the help names them. -/
def all : List Switch := [help, string, tokens, json, out, pretty, repl, verbose]

/-- The letter of the short spelling, if there is one. -/
def letter? : Switch → Option Char
  | help => some 'h'
  | string => some 's'
  | tokens => some 't'
  | json => some 'j'
  | out => some 'o'
  | pretty => some 'p'
  | repl => none
  | verbose => none

/-- The long spelling. -/
def long : Switch → String
  | help => "--help"
  | string => "--string"
  | tokens => "--tokens"
  | json => "--json"
  | out => "--out"
  | pretty => "--pretty"
  | repl => "--repl"
  | verbose => "--verbose"

/-- Both spellings, as errors name the switch. -/
def spellings (s : Switch) : String :=
  match s.letter? with
  | none => s.long
  | some c => "-" ++ String.singleton c ++ "/" ++ s.long

/-- The switch with a letter. -/
def ofLetter? (c : Char) : Option Switch := all.find? fun s => s.letter? == some c

/-- The switches whose long spelling begins with a text. -/
def startingWith (start : List Char) : List Switch :=
  all.filter fun s => start.isPrefixOf s.long.toList

/-- The switch with a spelling, and whether that is the short one. -/
def ofSpelling? : List Char → Option (Switch × Bool)
  | ['-', c] => (ofLetter? c).map (·, true)
  | cs => (all.find? fun s => s.long.toList == cs).map (·, false)

/-- Whether a switch is followed by a value. -/
def takesValue (s : Switch) : Bool := s == out

end Switch

end MonkeyFrontend.CommandLine
