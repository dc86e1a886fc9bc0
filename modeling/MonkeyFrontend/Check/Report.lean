import MonkeyFrontend.Check.Directory
import MonkeyFrontend.Parser.Descent
import MonkeyFrontend.Token.Stream
import MonkeyFrontend.Text.Line
import MonkeyFrontend.Tree.Data
import MonkeyFrontend.Tree.Render

/-! # Checking a source

A check reads one source, shows its tokens, its tree as data or its canonical form, and
tells what is wrong with it.  The settings choose what is shown and where; what is wrong is
told beside it and decides the status.
-/
namespace MonkeyFrontend

/-- What a check shows, and where. -/
structure Settings where
  /-- Show the tokens instead of the tree. -/
  tokens : Bool := false
  /-- Show the tree as data. -/
  json : Bool := false
  /-- Put banners around what is shown. -/
  pretty : Bool := false
  /-- The path of the file to write; if empty, nothing is written. -/
  out : String := ""
deriving DecidableEq, Repr

/-- What to check: a text, or a file that holds one. -/
inductive Source where
  | text (s : String)
  | file (path : String)
deriving DecidableEq, Repr

/-- Why a source cannot be checked or its result not be written. -/
inductive CheckError where
  | otherSuffix
  | noFile (path : String) (cause : PathError)
  | notText (path : String)
deriving DecidableEq, Repr

/-- The wording of an error. -/
def CheckError.message : CheckError → String
  | .otherSuffix => "Only .monkey files are supported."
  | .noFile _ .nullCharacter => "embedded null byte"
  | .noFile path .noSuchFile => "No such file: " ++ Text.quote path
  | .noFile path .isDirectory => "Is a directory: " ++ Text.quote path
  | .noFile path .notDirectory => "Not a directory: " ++ Text.quote path
  | .notText path => "Not a text: " ++ Text.quote path

/-- What is shown of a source: a title, a text, and what is wrong with the source. -/
structure Finding where
  title : String
  text : String
  diagnostics : List Diagnostic
deriving DecidableEq, Repr

/-- What a check leaves behind. -/
structure Report where
  status : Nat
  stdout : String
  stderr : String
  directory : Directory

/-- The line of a token: where it starts, its kind and its text. -/
def Token.listing (t : Token) : String :=
  toString t.position.line ++ ":" ++ toString t.position.column ++ "\t" ++ t.kind.text ++ "\t"
    ++ Text.quote t.literal

namespace Check

/-- The suffix that the name of a source file has. -/
def suffix : String := ".monkey"

/-- The text of a file, its line ends unified. -/
def decode (path : String) (bytes : ByteArray) : Except CheckError String :=
  match String.fromUTF8? bytes with
  | none => .error (.notText path)
  | some s => .ok (String.ofList (Text.unifyLineEnds s.toList))

/-- The text of a source. -/
def load (d : Directory) : Source → Except CheckError String
  | .text s => .ok s
  | .file path =>
    if suffix.toList.isSuffixOf path.toList then
      match d.read path with
      | .error cause => .error (.noFile path cause)
      | .ok bytes => decode path bytes
    else .error .otherSuffix

/-- What is shown of a text. -/
def examine (settings : Settings) (source : String) : Finding :=
  if settings.tokens then
    ⟨"Tokens", String.intercalate "\n" ((tokenize source).map Token.listing), []⟩
  else
    let parsed := Parser.parse source
    if settings.json then ⟨"Syntax Tree", parsed.1.toJson.layout, parsed.2⟩
    else ⟨"Program", parsed.1.render, parsed.2⟩

/-- The line above and below a title. -/
def banner : String := "====================\n"

/-- What is shown on the screen. -/
def stdout (settings : Settings) (f : Finding) : String :=
  if settings.out ≠ "" then
    if settings.pretty then "(wrote to " ++ settings.out ++ ")\n" else ""
  else if settings.pretty then
    banner ++ f.title ++ "\n" ++ banner ++ f.text ++ "\n" ++ banner ++ "\n"
  else f.text ++ "\n"

/-- What is told about what is wrong. -/
def stderr (settings : Settings) (f : Finding) : String :=
  if f.diagnostics.isEmpty then ""
  else
    (if settings.pretty then
      "<<< " ++ toString f.diagnostics.length ++ " PARSER ERRORS >>>\n" else "")
      ++ String.join (f.diagnostics.map fun d => "\t" ++ d.message ++ "\n")

/-- Whether anything is wrong. -/
def status (f : Finding) : Nat := if f.diagnostics.isEmpty then 0 else 1

/-- Writes what is shown, if the settings name a file for it. -/
def save (d : Directory) (settings : Settings) (f : Finding) : Except CheckError Directory :=
  if settings.out = "" then .ok d
  else
    match d.write settings.out f.text.toUTF8 with
    | .error cause => .error (.noFile settings.out cause)
    | .ok changed => .ok changed

/-- Tells about a text. -/
def report (d : Directory) (settings : Settings) (source : String) :
    Except CheckError Report :=
  let f := examine settings source
  match save d settings f with
  | .error e => .error e
  | .ok changed => .ok ⟨status f, stdout settings f, stderr settings f, changed⟩

/-- Checks a source. -/
def run (d : Directory) (settings : Settings) (source : Source) : Except CheckError Report :=
  match load d source with
  | .error e => .error e
  | .ok text => report d settings text

end Check

end MonkeyFrontend
