import MonkeyFrontend.Proofs.Check.Steps

/-! # Checking files

A check of a file fails in three ways, and before anything is changed: the name has another suffix,
there is no such file, or its bytes are no text.  Otherwise it is the check of the text in the file,
with its line ends unified.  Which of these it is follows from the name and the bytes
(`Check.Loads`).  So the style of the line ends is never seen, and a check may even write its result
into the file that it has read.
-/
namespace MonkeyFrontend

namespace Text

/-- A text with its line ends unified. -/
def unified (text : String) : String := String.ofList (unifyLineEnds text.toList)

theorem styled_unified (text : String) : Styled (unified text).toList text.toList := by
  rw [unified, String.toList_ofList]
  exact unifyLineEnds_eq_iff.mp rfl

theorem unified_eq_of_styled {text plain : String} (h : Styled plain.toList text.toList) :
    unified text = plain := by
  rw [unified, unifyLineEnds_eq_iff.mpr h, String.ofList_toList]

end Text

namespace Check

variable {d : Directory} {settings : Settings} {path : String} {bytes : ByteArray}

/-- Bytes are a text when they are its code. -/
theorem fromUTF8?_eq_some_iff {text : String} :
    String.fromUTF8? bytes = some text ↔ text.toUTF8 = bytes := by
  unfold String.fromUTF8?
  constructor
  · intro h
    split at h
    · obtain rfl := Option.some.inj h
      rfl
    · contradiction
  · rintro rfl
    exact dif_pos text.isValidUTF8

theorem decode_text (path text : String) :
    decode path text.toUTF8 = .ok (Text.unified text) := by
  have htext : String.fromUTF8? text.toUTF8 = some text := fromUTF8?_eq_some_iff.mpr rfl
  rw [decode, htext, Text.unified]

theorem decode_of_not_text (h : ∀ text : String, text.toUTF8 ≠ bytes) :
    decode path bytes = .error (.notText path) := by
  have hnone : String.fromUTF8? bytes = none :=
    Option.eq_none_iff_forall_ne_some.mpr fun text htext => h text (fromUTF8?_eq_some_iff.mp htext)
  rw [decode, hnone]

/-- **What there is to load from a path.** -/
inductive Loads (d : Directory) (path : String) : Except CheckError String → Prop where
  | otherSuffix : ¬ ".monkey".toList <:+ path.toList → Loads d path (.error .otherSuffix)
  | noSuchFile : ".monkey".toList <:+ path.toList → d.files.lookup path = none →
      Loads d path (.error (.noFile path .noSuchFile))
  | notText {bytes : ByteArray} : ".monkey".toList <:+ path.toList → d.files.lookup path = some bytes →
      (∀ text : String, text.toUTF8 ≠ bytes) → Loads d path (.error (.notText path))
  | text {text : String} : ".monkey".toList <:+ path.toList →
      d.files.lookup path = some text.toUTF8 → Loads d path (.ok (Text.unified text))

theorem exists_loads (d : Directory) (path : String) : ∃ x, Loads d path x := by
  by_cases hsuffix : ".monkey".toList <:+ path.toList
  · cases hlook : d.files.lookup path with
    | none => exact ⟨_, .noSuchFile hsuffix hlook⟩
    | some bytes =>
      by_cases htext : ∃ text : String, text.toUTF8 = bytes
      · obtain ⟨text, rfl⟩ := htext
        exact ⟨_, .text hsuffix hlook⟩
      · exact ⟨_, .notText hsuffix hlook (not_exists.mp htext)⟩
  · exact ⟨_, .otherSuffix hsuffix⟩

/-- A path with the right suffix is read. -/
theorem load_of_suffix (hsuffix : ".monkey".toList <:+ path.toList) (d : Directory) :
    load d (.file path) = match d.read path with
      | .error cause => .error (.noFile path cause)
      | .ok bytes => decode path bytes :=
  if_pos (List.isSuffixOf_iff_suffix.mpr hsuffix)

theorem Loads.load_eq {x : Except CheckError String} (hx : Loads d path x)
    (hpath : Directory.IsName path) : load d (.file path) = x := by
  cases hx with
  | otherSuffix hsuffix => exact if_neg fun h => hsuffix (List.isSuffixOf_iff_suffix.mp h)
  | noSuchFile hsuffix hlook => rw [load_of_suffix hsuffix, hpath.read_of_none hlook]
  | notText hsuffix hlook hnot =>
    rw [load_of_suffix hsuffix, hpath.read_of_some hlook]
    exact decode_of_not_text hnot
  | text hsuffix hlook =>
    rw [load_of_suffix hsuffix, hpath.read_of_some hlook]
    exact decode_text _ _

theorem load_eq_iff (hpath : Directory.IsName path) {x : Except CheckError String} :
    load d (.file path) = x ↔ Loads d path x := by
  refine ⟨fun h => ?_, fun h => h.load_eq hpath⟩
  obtain ⟨y, hy⟩ := exists_loads d path
  rwa [← h, hy.load_eq hpath]

/-- Writing does not fail, so that a check fails only if nothing can be loaded. -/
theorem run_eq_error_iff (h : settings.Named) {e : CheckError} :
    run d settings (.file path) = .error e ↔ load d (.file path) = .error e := by
  rw [run]
  cases hload : load d (.file path) with
  | error e' => simp
  | ok text =>
    have hrun := run_text h d text
    rw [run, load] at hrun
    dsimp only at hrun ⊢
    rw [hrun]
    simp

theorem run_of_load (h : settings.Named) {text : String} (hload : load d (.file path) = .ok text) :
    run d settings (.file path) = .ok (textReport d settings text) := by
  rw [run, hload]
  exact run_text h d text

/-! ## Files and texts -/

/-- Directories that have the same file under each name but one. -/
def AgreeBut (path : String) (d e : Directory) : Prop :=
  ∀ name, name ≠ path → d.files.lookup name = e.files.lookup name

/-- The same is written into both, and nothing else happens in them. -/
theorem AgreeBut.filed {e : Directory} (h : AgreeBut path d e) (settings : Settings)
    (shown : String) : AgreeBut path (filed d settings shown) (filed e settings shown) := by
  intro name hne
  by_cases hname : name = settings.out
  · subst hname
    by_cases hout : settings.out = ""
    · rw [Check.filed, Check.filed, if_pos hout, if_pos hout]
      exact h _ hne
    · rw [lookup_filed_out hout, lookup_filed_out hout]
  · rw [lookup_filed_of_ne hname, lookup_filed_of_ne hname]
    exact h name hne

/-- **A check of a file**, beside the check of its text. -/
structure FileChecked (d : Directory) (settings : Settings) (path : String) : Prop where
  otherSuffix_iff : run d settings (.file path) = .error .otherSuffix ↔
    ¬ ".monkey".toList <:+ path.toList
  noSuchFile_iff : run d settings (.file path) = .error (.noFile path .noSuchFile) ↔
    ".monkey".toList <:+ path.toList ∧ d.files.lookup path = none
  notText_iff : run d settings (.file path) = .error (.notText path) ↔
    ".monkey".toList <:+ path.toList ∧ ∃ bytes, d.files.lookup path = some bytes ∧
      ∀ text : String, text.toUTF8 ≠ bytes
  failure : ∀ e, run d settings (.file path) = .error e →
    e ∈ [.otherSuffix, .noFile path .noSuchFile, .notText path]
  /-- A check that fails has put out nothing and changed no file. -/
  atomic : ∀ e, run d settings (.file path) = .error e → ∀ out err,
    (steps settings (.file path)).run ⟨d, out, err⟩ = .error e ⟨d, out, err⟩
  /-- Otherwise the file is its text with unified line ends. -/
  refines : ".monkey".toList <:+ path.toList → ∀ text : String,
    d.files.lookup path = some text.toUTF8 →
      Text.Styled (Text.unified text).toList text.toList ∧ ∃ r,
        run d settings (.file path) = .ok r ∧
        run d settings (.text (Text.unified text)) = .ok r ∧ ∀ out err,
          (steps settings (.file path)).run ⟨d, out, err⟩ =
            .ok r.status ⟨r.directory, out ++ r.stdout, err ++ r.stderr⟩
  /-- The style of the line ends is not seen. -/
  styles : ".monkey".toList <:+ path.toList → ∀ (e : Directory) (text other plain : String),
    d.files.lookup path = some text.toUTF8 → e.files.lookup path = some other.toUTF8 →
    AgreeBut path d e → Text.Styled plain.toList text.toList →
    Text.Styled plain.toList other.toList → ∃ r s,
      run d settings (.file path) = .ok r ∧ run e settings (.file path) = .ok s ∧
      r.status = s.status ∧ r.stdout = s.stdout ∧ r.stderr = s.stderr ∧
      AgreeBut path r.directory s.directory ∧
      (settings.out = path →
        r.directory.files.lookup path = s.directory.files.lookup path)

/-- **A check of a file is that of its text, or it fails and changes nothing.** -/
theorem file_refines_text (hpath : Directory.IsName path) (h : settings.Named) (d : Directory) :
    FileChecked d settings path := by
  have herror : ∀ {e}, run d settings (.file path) = .error e ↔ Loads d path (.error e) :=
    (run_eq_error_iff h).trans (load_eq_iff hpath)
  have hrun : ∀ {c : Directory} {text plain : String}, ".monkey".toList <:+ path.toList →
      c.files.lookup path = some text.toUTF8 → Text.Styled plain.toList text.toList →
      run c settings (.file path) = .ok (textReport c settings plain) := by
    intro c text plain hsuffix hlook hstyled
    rw [← Text.unified_eq_of_styled hstyled]
    exact run_of_load h ((Loads.text hsuffix hlook).load_eq hpath)
  constructor
  case otherSuffix_iff =>
    rw [herror]
    refine ⟨fun hloads => ?_, .otherSuffix⟩
    cases hloads with
    | otherSuffix hsuffix => exact hsuffix
  case noSuchFile_iff =>
    rw [herror]
    refine ⟨fun hloads => ?_, fun ⟨hsuffix, hlook⟩ => .noSuchFile hsuffix hlook⟩
    cases hloads with
    | noSuchFile hsuffix hlook => exact ⟨hsuffix, hlook⟩
  case notText_iff =>
    rw [herror]
    refine ⟨fun hloads => ?_, fun ⟨hsuffix, _, hlook, hnot⟩ => .notText hsuffix hlook hnot⟩
    cases hloads with
    | notText hsuffix hlook hnot => exact ⟨hsuffix, _, hlook, hnot⟩
  case failure =>
    intro e he
    cases herror.mp he with
    | otherSuffix => simp
    | noSuchFile => simp
    | notText => simp
  case atomic =>
    intro e he out err
    rw [run_steps, he]
  case refines =>
    intro hsuffix text hlook
    have hstyled := Text.styled_unified text
    refine ⟨hstyled, _, hrun hsuffix hlook hstyled, run_text h d _, fun out err => ?_⟩
    rw [run_steps, hrun hsuffix hlook hstyled]
  case styles =>
    intro hsuffix e text other plain hlook hother hagree hstyled hstyled'
    refine ⟨_, _, hrun hsuffix hlook hstyled, hrun hsuffix hother hstyled', rfl, rfl, rfl,
      hagree.filed settings _, ?_⟩
    rintro rfl
    have hout := hpath.ne_empty
    rw [textReport, textReport, lookup_filed_out hout, lookup_filed_out hout]

/-- The result is written over the file that has been read. -/
theorem file_refines_text_overwritten : ∃ r,
    run ⟨[("a.monkey", "1;\r\n2".toUTF8)]⟩ { out := "a.monkey" } (.file "a.monkey") = .ok r ∧
      run ⟨[("a.monkey", "1;\r\n2".toUTF8)]⟩ { out := "a.monkey" } (.text "1;\n2") = .ok r := by
  have hpath : Directory.IsName "a.monkey" := ⟨by decide, by decide, by decide⟩
  have hnamed : Settings.Named { out := "a.monkey" } := Or.inr hpath
  have hunified : Text.unified "1;\r\n2" = "1;\n2" := by decide
  obtain ⟨-, r, hfile, htext, -⟩ :=
    (file_refines_text hpath hnamed _).refines (by decide) "1;\r\n2" (List.lookup_cons_self ..)
  exact ⟨r, hfile, hunified ▸ htext⟩

end Check
end MonkeyFrontend
