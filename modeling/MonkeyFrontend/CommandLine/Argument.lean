import MonkeyFrontend.CommandLine.Switch
import MonkeyFrontend.Text.Decimal
import MonkeyFrontend.Text.Quoted

/-! # Arguments

Each argument is taken by itself for a value, a switch or neither.  A switch may carry a text
behind an equals sign, a short one also directly.  The text is the value of a switch that
takes one; behind any other short switch its letters are more short switches, the last of
them with its value.  A long switch may be cut short.
-/
namespace MonkeyFrontend.CommandLine

/-- Why a command line cannot be followed. -/
inductive UsageError where
  | ambiguous (argument : String) (candidates : List Switch)
  | missingValue (s : Switch)
  | ignoredValue (s : Switch) (text : String)
  | unrecognized (arguments : List String)
deriving DecidableEq, Repr

/-- The wording of an error. -/
def UsageError.message : UsageError → String
  | .ambiguous argument candidates =>
    "ambiguous option: " ++ argument ++ " could match "
      ++ String.intercalate ", " (candidates.map Switch.long)
  | .missingValue s => "argument " ++ s.spellings ++ ": expected one argument"
  | .ignoredValue s text =>
    "argument " ++ s.spellings ++ ": ignored explicit argument " ++ Text.quote text
  | .unrecognized arguments => "unrecognized arguments: " ++ String.intercalate " " arguments

/-- What an argument is taken for. -/
inductive Argument where
  | value (text : String)
  | switch (s : Switch) (short : Bool) (attached : Option (List Char))
  | unknown (text : String)
deriving DecidableEq, Repr

/-- Whether a text is a run of decimal digits of any script. -/
def isDigits (cs : List Char) : Bool := cs.all fun c => (Text.digitValue? c).isSome

/-- Whether a text is a decimal number: digits, or digits behind a point that may have
others before it. -/
def isNumber (cs : List Char) : Bool :=
  let whole := cs.takeWhile (· != '.')
  match cs.dropWhile (· != '.') with
  | [] => !whole.isEmpty && isDigits whole
  | _ :: fraction => isDigits whole && !fraction.isEmpty && isDigits fraction

/-- Whether what follows a minus sign makes it a negative number; one newline may end it. -/
def isNegated (cs : List Char) : Bool :=
  isNumber (if cs.getLast? = some '\n' then cs.dropLast else cs)

/-- What an argument is taken for when it begins with a minus sign but spells no switch. -/
def unspelled (cs : List Char) : Argument :=
  if isNegated cs.tail || cs.contains ' ' then .value (String.ofList cs)
  else .unknown (String.ofList cs)

/-- The name part of an argument and the text behind its first equals sign. -/
def splitAtEquals (cs : List Char) : List Char × Option (List Char) :=
  match cs.dropWhile (· != '=') with
  | [] => (cs, none)
  | _ :: text => (cs.takeWhile (· != '='), some text)

/-- What an argument is taken for when it begins with two minus signs. -/
def classifyLong (cs : List Char) : Except UsageError Argument :=
  let parts := splitAtEquals cs
  match Switch.startingWith parts.1 with
  | [] => .ok (unspelled cs)
  | [s] => .ok (.switch s false parts.2)
  | several => .error (.ambiguous (String.ofList cs) several)

/-- What an argument is taken for when it begins with one minus sign. -/
def classifyShort (cs : List Char) : Argument :=
  match cs with
  | '-' :: c :: text =>
    match Switch.ofLetter? c with
    | some s => .switch s true (some text)
    | none => unspelled cs
  | _ => .value (String.ofList cs)

/-- What an argument is taken for. -/
def classify (argument : String) : Except UsageError Argument :=
  let cs := argument.toList
  let parts := splitAtEquals cs
  match Switch.ofSpelling? cs, parts.2, Switch.ofSpelling? parts.1 with
  | some (s, short), _, _ => .ok (.switch s short none)
  | none, some attached, some (s, short) => .ok (.switch s short (some attached))
  | none, _, _ =>
    match cs with
    | '-' :: '-' :: _ => classifyLong cs
    | '-' :: _ => .ok (classifyShort cs)
    | _ => .ok (.value argument)

/-- How an argument that holds switches ends: with the last of them, with a value, or with a
switch whose value is the next argument. -/
inductive Ending where
  | complete
  | value (text : String)
  | wantsValue
deriving DecidableEq, Repr

/-- The switches without value in an argument, and how it ends. -/
structure Expansion where
  switches : List Switch
  ending : Ending
deriving DecidableEq, Repr

/-- An expansion with one more switch before it. -/
def Expansion.after (s : Switch) (e : Expansion) : Expansion := ⟨s :: e.switches, e.ending⟩

/-- The value that an attached text gives.  Two minus signs alone give an empty one. -/
def attachedValue (text : List Char) : String :=
  if text = ['-', '-'] then "" else String.ofList text

/-- The expansion of a switch with nothing attached. -/
def expandAlone (s : Switch) : Expansion :=
  if s.takesValue then ⟨[], .wantsValue⟩ else ⟨[s], .complete⟩

/-- The expansion of a short switch with the rest of its argument.  Where that is no value,
its letters have to be switches; the first that is none refuses all from it on. -/
def expandShort (s : Switch) : List Char → Except UsageError Expansion
  | [] => .ok (expandAlone s)
  | c :: text =>
    if s.takesValue then .ok ⟨[], .value (attachedValue (c :: text))⟩
    else
      match Switch.ofLetter? c with
      | none => .error (.ignoredValue s (String.ofList (c :: text)))
      | some next => (expandShort next text).map (.after s)

/-- The expansion of a switch.  A text that is empty, or attached to a long switch, is
refused unless it is a value. -/
def expand (s : Switch) (short : Bool) : Option (List Char) → Except UsageError Expansion
  | none => .ok (expandAlone s)
  | some text =>
    if s.takesValue then .ok ⟨[], .value (attachedValue text)⟩
    else if short && !text.isEmpty then expandShort s text
    else .error (.ignoredValue s (String.ofList text))

end MonkeyFrontend.CommandLine
