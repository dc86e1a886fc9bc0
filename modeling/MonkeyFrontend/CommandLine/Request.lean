import MonkeyFrontend.Check.Report
import MonkeyFrontend.CommandLine.Argument

/-! # Requests

What a whole command line asks for.  Arguments are followed from left to right; the help
is shown as soon as it is asked for.  After two minus signs every argument is a value.  The
first value is the source; what no part of the command line accounts for is an error.
-/
namespace MonkeyFrontend.CommandLine

/-- What a command line asks for. -/
inductive Request where
  | help
  | session (verbose : Bool)
  | check (source : Source) (settings : Settings)
deriving DecidableEq, Repr

/-- What the arguments so far amount to. -/
structure Collected where
  switches : List Switch := []
  source? : Option String := none
  out : String := ""
  extra : List String := []

namespace Collected

/-- Adds switches. -/
def addSwitches (c : Collected) (ss : List Switch) : Collected :=
  { c with switches := c.switches ++ ss }

/-- Adds arguments that nothing accounts for. -/
def addExtra (c : Collected) (arguments : List String) : Collected :=
  { c with extra := c.extra ++ arguments }

/-- Adds a value: the source if there is none yet. -/
def addValue (c : Collected) (text : String) : Collected :=
  match c.source? with
  | none => { c with source? := some text }
  | some _ => c.addExtra [text]

/-- Adds what an argument with switches ends with. -/
def addEnding (c : Collected) : Ending → Collected
  | .value text => { c with out := text }
  | _ => c

/-- Adds what stands behind two minus signs.  They are dropped if they introduce the source
or directly follow it. -/
def addRemaining (c : Collected) (behindSource : Bool) (arguments : List String) : Collected :=
  match c.source?, arguments with
  | none, [] => c
  | none, text :: more => (c.addValue text).addExtra more
  | some _, _ => c.addExtra (if behindSource then arguments else "--" :: arguments)

/-- Whether a switch was given. -/
def has (c : Collected) (s : Switch) : Bool := c.switches.contains s

/-- The settings of a check. -/
def settings (c : Collected) : Settings :=
  ⟨c.has .tokens, c.has .json, c.has .pretty, c.out⟩

/-- What everything together asks for: a check of the source, or a session if there is none
or one is asked for. -/
def request (c : Collected) : Except UsageError Request :=
  if !c.extra.isEmpty then .error (.unrecognized c.extra)
  else
    match c.has .repl, c.source? with
    | false, some text =>
      .ok (.check (if c.has .string then .text text else .file text) c.settings)
    | _, _ => .ok (.session (c.has .verbose))

end Collected

/-- Follows the arguments before two minus signs; `remaining` are those behind, and
`behindSource` tells whether the argument just followed was the source. -/
def follow (remaining : Option (List String)) (c : Collected) (behindSource : Bool) :
    List Argument → Except UsageError Request
  | [] =>
    match remaining with
    | none => c.request
    | some arguments => (c.addRemaining behindSource arguments).request
  | .value text :: rest => follow remaining (c.addValue text) c.source?.isNone rest
  | .unknown text :: rest => follow remaining (c.addExtra [text]) false rest
  | .switch s short attached :: rest =>
    match expand s short attached with
    | .error e => .error e
    | .ok ⟨switches, .wantsValue⟩ =>
      match rest with
      | .value text :: more =>
        if switches.contains .help then .ok .help
        else follow remaining ((c.addSwitches switches).addEnding (.value text)) false more
      | _ => .error (.missingValue .out)
    | .ok ⟨switches, ending⟩ =>
      if switches.contains .help then .ok .help
      else follow remaining ((c.addSwitches switches).addEnding ending) false rest

/-- What a command line asks for. -/
def read (arguments : List String) : Except UsageError Request :=
  match (arguments.takeWhile (· != "--")).mapM classify with
  | .error e => .error e
  | .ok taken =>
    match arguments.dropWhile (· != "--") with
    | [] => follow none {} false taken
    | _ :: remaining => follow (some remaining) {} false taken

end MonkeyFrontend.CommandLine
