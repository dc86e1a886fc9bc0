import MonkeyFrontend.Check.Report
import MonkeyFrontend.Proofs.Check.Directory
import MonkeyFrontend.Proofs.Parser.Display
import MonkeyFrontend.Proofs.Text.Integer
import MonkeyFrontend.Proofs.Text.Lines

/-! # Settings of the output

The settings choose what is shown of a text, where it is put and how it is dressed.  Only the first
choice decides what the text shown is: under all others it is the one of the plain settings, put in
a file or on the screen (`Check.Delivered`), and what is told about the text does not change but for
one line (`Check.Judged`).  No diagnostic breaks a line, so these lines can be counted.
-/
namespace MonkeyFrontend

/-- The same settings without those of the output: nothing is written, and there are no banners. -/
def Settings.plain (settings : Settings) : Settings := { settings with pretty := false, out := "" }

/-- Whether nothing is written, or a file with an ordinary name. -/
def Settings.Named (settings : Settings) : Prop :=
  settings.out = "" ∨ Directory.IsName settings.out

/-- The title of what is shown. -/
def Settings.title (settings : Settings) : String :=
  if settings.tokens then "Tokens" else if settings.json then "Syntax Tree" else "Program"

/-- The line that tells a diagnostic. -/
def Diagnostic.line (d : Diagnostic) : String := "\t" ++ d.message

namespace Check

variable {settings : Settings}

/-- What a check finds wrong with a text: nothing if it only looks at the tokens. -/
def diagnostics (settings : Settings) (source : String) : List Diagnostic :=
  if settings.tokens then [] else (Parser.parse source).2

/-- The files after a text has been shown. -/
def filed (d : Directory) (settings : Settings) (shown : String) : Directory :=
  if settings.out = "" then d else ⟨Directory.put settings.out shown.toUTF8 d.files⟩

theorem lookup_filed_out (hout : settings.out ≠ "") (d : Directory) (shown : String) :
    (filed d settings shown).files.lookup settings.out = some shown.toUTF8 := by
  rw [filed, if_neg hout]
  exact Directory.lookup_put _ _ _

theorem lookup_filed_of_ne {name : String} (hne : name ≠ settings.out) (d : Directory)
    (shown : String) : (filed d settings shown).files.lookup name = d.files.lookup name := by
  rw [filed]
  split
  · rfl
  · exact Directory.lookup_put_of_ne hne _ _

theorem save_eq (h : settings.Named) (d : Directory) (f : Finding) :
    save d settings f = .ok (filed d settings f.text) := by
  rcases h with hout | hname
  · rw [save, filed, if_pos hout, if_pos hout]
  · rw [save, filed, if_neg hname.ne_empty, if_neg hname.ne_empty, hname.write_eq]

/-- The report on a text. -/
def textReport (d : Directory) (settings : Settings) (source : String) : Report :=
  let f := examine settings source
  ⟨status f, stdout settings f, stderr settings f, filed d settings f.text⟩

/-- A check of a text does not fail. -/
theorem run_text (h : settings.Named) (d : Directory) (source : String) :
    run d settings (.text source) = .ok (textReport d settings source) := by
  simp only [run, load, report, save_eq h, textReport]

end Check
end MonkeyFrontend
