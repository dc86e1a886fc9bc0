import MonkeyFrontend.CommandLine.Request
import MonkeyFrontend.Session.Run

/-! # Runs of the program

What the program does with its arguments: it shows its help, holds a session, checks a
source, or says why it cannot follow the arguments.
-/
namespace MonkeyFrontend.CommandLine

/-- The lines that show how the program is called. -/
def usage : String :=
  "usage: monkey [-h] [-s] [-t] [-j] [-o OUTFILE] [-p] [--repl] [--verbose]\n"
    ++ "              [source]\n"

/-- The help. -/
def help : String :=
  usage
    ++ "\n"
    ++ "positional arguments:\n"
    ++ "  source                Filename or raw source (with -s)\n"
    ++ "\n"
    ++ "options:\n"
    ++ "  -h, --help            show this help message and exit\n"
    ++ "  -s, --string          Interpret source as literal string\n"
    ++ "  -t, --tokens          Print tokens instead of the tree\n"
    ++ "  -j, --json            Print tree as JSON\n"
    ++ "  -o OUTFILE, --out OUTFILE\n"
    ++ "                        Output to file\n"
    ++ "  -p, --pretty          Show output with banners\n"
    ++ "  --repl                Launch interactive REPL instead of checking a source\n"
    ++ "  --verbose             Verbose REPL mode (if --repl)\n"

/-- What is said about arguments that cannot be followed. -/
def complaint (e : UsageError) : String := usage ++ "monkey: error: " ++ e.message ++ "\n"

/-- What a run leaves behind.  A session ends without a status. -/
structure Result where
  status? : Option Nat
  stdout : String
  stderr : String
  directory : Directory

/-- The lines of the text on the standard input. -/
def inputLines (stdin : String) : List String :=
  (Text.lines (Text.unifyLineEnds stdin.toList)).map String.ofList

/-- Runs the program in a directory. -/
def run (d : Directory) (stdin : String) (arguments : List String) :
    Except CheckError Result :=
  match read arguments with
  | .error e => .ok ⟨some 2, "", complaint e, d⟩
  | .ok .help => .ok ⟨some 0, help, "", d⟩
  | .ok (.session verbose) => .ok ⟨none, Session.run verbose (inputLines stdin), "", d⟩
  | .ok (.check source settings) =>
    (Check.run d settings source).map fun r => ⟨some r.status, r.stdout, r.stderr, r.directory⟩

end MonkeyFrontend.CommandLine
