import MonkeyFrontend.CommandLine.Run

/-! # The program

Reads the arguments, the files and the keyboard, and writes what the library answers.
-/
namespace MonkeyFrontend.CommandLine

/-- The next line typed, with the lines typed together with it; `none` at the end. -/
def nextLine (typed : List String) : IO (Option (String × List String)) := do
  match typed with
  | line :: rest => return some (line, rest)
  | [] =>
    match inputLines (← (← IO.getStdin).getLine) with
    | line :: rest => return some (line, rest)
    | [] => return none

/-- Holds a session, showing each answer as soon as its entry is finished. -/
partial def converse (verbose : Bool) (draft : Session.Draft) (typed : List String) :
    IO Unit := do
  IO.print draft.prompt
  (← IO.getStdout).flush
  match ← nextLine typed with
  | none => IO.print ("\n" ++ Session.farewell)
  | some (line, rest) =>
    match draft.add line with
    | .inl longer => converse verbose longer rest
    | .inr .leave => IO.print Session.farewell
    | .inr (.text s) =>
      IO.print (Session.respond verbose s)
      converse (Session.modeAfter verbose s) .empty rest

/-- The text of a source, read from its file if it has one. -/
def fetch : Source → IO (Except CheckError String)
  | .text s => return .ok s
  | .file path => do
    if !Check.suffix.toList.isSuffixOf path.toList then return .error .otherSuffix
    try return Check.decode path (← IO.FS.readBinFile path)
    catch _ => return .error (.noFile path .noSuchFile)

/-- Checks a source and writes what is shown of it. -/
def check (source : Source) (settings : Settings) : IO UInt32 := do
  match ← fetch source with
  | .error e =>
    IO.eprintln e.message
    return 1
  | .ok text =>
    let f := Check.examine settings text
    if settings.out ≠ "" then IO.FS.writeFile settings.out f.text
    IO.print (Check.stdout settings f)
    IO.eprint (Check.stderr settings f)
    return UInt32.ofNat (Check.status f)

end MonkeyFrontend.CommandLine

open MonkeyFrontend.CommandLine in
/-- Does what the command line asks for. -/
def main (arguments : List String) : IO UInt32 := do
  match read arguments with
  | .error e =>
    IO.eprint (complaint e)
    return 2
  | .ok .help =>
    IO.print help
    return 0
  | .ok (.session verbose) =>
    IO.print MonkeyFrontend.Session.greeting
    converse verbose .empty []
    return 0
  | .ok (.check source settings) => check source settings
