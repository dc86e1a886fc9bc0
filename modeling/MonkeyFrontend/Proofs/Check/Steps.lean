import MonkeyFrontend.Proofs.Check.Settings

/-! # A check step by step

`Check.run` says what a check leaves behind when it succeeds.  Here the same check acts on a world
step by step: it reads a file, empties the file to be written and fills it, and puts out its lines.
What has been done before a step fails stays done, so that it matters in which order the steps are
taken.  All that can fail comes before all that changes anything (`Check.run_steps`).
-/
namespace MonkeyFrontend

/-- What a check acts on: the files, and what has been put out so far. -/
structure World where
  directory : Directory
  stdout : String
  stderr : String

/-- A program that acts on a world and may fail.  Failing undoes nothing. -/
abbrev Act : Type → Type := EStateM CheckError World

namespace Act

/-- Reads the file that a path means. -/
def readFile (path : String) : Act ByteArray := do
  match (← get).directory.read path with
  | .error cause => throw (.noFile path cause)
  | .ok bytes => return bytes

/-- Puts bytes under a name. -/
def putFile (name : String) (bytes : ByteArray) : Act Unit :=
  modify fun w => { w with directory := ⟨Directory.put name bytes w.directory.files⟩ }

/-- Opens the file that a path means for writing.  The file is there from now on, and empty. -/
def openFile (path : String) : Act String := do
  match (← get).directory.name path with
  | .error cause => throw (.noFile path cause)
  | .ok name =>
    putFile name .empty
    return name

/-- Puts a text out. -/
def print (s : String) : Act Unit := modify fun w => { w with stdout := w.stdout ++ s }

/-- Puts a text out beside the others. -/
def printError (s : String) : Act Unit := modify fun w => { w with stderr := w.stderr ++ s }

/-- Reading changes nothing. -/
theorem run_readFile (path : String) (w : World) :
    (readFile path).run w = match w.directory.read path with
      | .error cause => .error (.noFile path cause) w
      | .ok bytes => .ok bytes w := by
  rw [readFile, EStateM.run_bind, EStateM.run_get]
  dsimp only
  cases w.directory.read path <;> rfl

/-- Nothing is changed unless the path means a file. -/
theorem run_openFile (path : String) (w : World) :
    (openFile path).run w = match w.directory.name path with
      | .error cause => .error (.noFile path cause) w
      | .ok name =>
        .ok name { w with directory := ⟨Directory.put name .empty w.directory.files⟩ } := by
  rw [openFile, EStateM.run_bind, EStateM.run_get]
  dsimp only
  cases w.directory.name path <;> rfl

end Act

namespace Check

open Act

/-- Gets the text of a source. -/
def fetch : Source → Act String
  | .text s => return s
  | .file path => do
    if !suffix.toList.isSuffixOf path.toList then throw .otherSuffix
    match decode path (← readFile path) with
    | .error e => throw e
    | .ok text => return text

/-- Getting a text changes nothing. -/
theorem run_fetch (source : Source) (w : World) :
    (fetch source).run w = match load w.directory source with
      | .error e => .error e w
      | .ok text => .ok text w := by
  cases source with
  | text s => rfl
  | file path =>
    rw [load, fetch]
    cases suffix.toList.isSuffixOf path.toList with
    | false => rfl
    | true =>
      change EStateM.run (readFile path >>= _) w = _
      rw [EStateM.run_bind, run_readFile, if_pos rfl]
      cases w.directory.read path with
      | error cause => rfl
      | ok bytes =>
        dsimp only
        cases decode path bytes <;> rfl

/-- Checks a source step by step. -/
def steps (settings : Settings) (source : Source) : Act Nat := do
  let f := examine settings (← fetch source)
  if settings.out ≠ "" then
    let name ← openFile settings.out
    putFile name f.text.toUTF8
  print (stdout settings f)
  printError (stderr settings f)
  return status f

/-- **A check step by step leaves behind what `run` says**, and if it fails it has changed
nothing. -/
theorem run_steps (settings : Settings) (source : Source) (w : World) :
    (steps settings source).run w = match run w.directory settings source with
      | .error e => .error e w
      | .ok r => .ok r.status ⟨r.directory, w.stdout ++ r.stdout, w.stderr ++ r.stderr⟩ := by
  rw [steps, EStateM.run_bind, run_fetch, run]
  cases load w.directory source with
  | error e => rfl
  | ok text =>
    dsimp only
    rw [report, save]
    by_cases hout : settings.out = ""
    · rw [if_neg (not_not.mpr hout), if_pos hout]
      rfl
    · rw [if_pos hout, if_neg hout, Directory.write, EStateM.run_bind, run_openFile]
      cases w.directory.name settings.out with
      | error cause => rfl
      | ok name =>
        -- the file is emptied and then filled
        dsimp only
        rw [← Directory.put_put name .empty (examine settings text).text.toUTF8]
        rfl

end Check
end MonkeyFrontend
