import MonkeyFrontend.CommandLine.Run
import MonkeyFrontend.Proofs.CommandLine.Requests

/-! # What the program does with its arguments

Every request can be made, except that two minus signs are never the file to write
(`exists_read_iff`).  A command line that can be followed is run as a check with what its parts say
(`run_parts`).  One that cannot be followed is refused: nothing is shown but the complaint, no file
is changed, and the status is one that no check has (`run_refused_iff`).
-/
namespace MonkeyFrontend.CommandLine

variable {c : Collected} {q : Request}

/-! ## Requests that can be made -/

namespace Request

/-- The switches that a request is made with. -/
def asksFor : Request → Switch → Bool
  | .help, .help => true
  | .session verbose, .verbose => verbose
  | .check (.text _) _, .string => true
  | .check _ settings, .tokens => settings.tokens
  | .check _ settings, .json => settings.json
  | .check _ settings, .pretty => settings.pretty
  | _, _ => false

/-- The file that a request names for what is shown, if any. -/
def out : Request → String
  | .check _ settings => settings.out
  | _ => ""

/-- The values that a request is made with. -/
def texts : Request → List String
  | .check (.text source) _ | .check (.file source) _ => [source]
  | _ => []

theorem asksFor_out (q : Request) : q.asksFor .out = false := by
  match q with
  | .help | .session _ | .check (.text _) _ | .check (.file _) _ => rfl

theorem asksFor_help {q : Request} (h : q ≠ .help) : q.asksFor .help = false := by
  match q with
  | .help => exact absurd rfl h
  | .session _ | .check (.text _) _ | .check (.file _) _ => rfl

end Request

theorem asks_request {q : Request} (hhelp : q ≠ .help) {ss : List Switch}
    (h : ∀ s, s ∈ ss ↔ q.asksFor s) : asks ss q.out q.texts = .ok q := by
  match q with
  | .help => exact absurd rfl hhelp
  | .session verbose => simp [asks, Request.texts, h, Request.asksFor]
  | .check (.text source) settings =>
    simp [asks, Request.texts, h, Request.asksFor, Request.out]
  | .check (.file path) settings =>
    simp [asks, Request.texts, h, Request.asksFor, Request.out]

/-- Any switches can be given, and any file but two minus signs. -/
theorem exists_parts {ss : List Switch} (hss : .out ∉ ss) {path : String} (named : path ≠ "--") :
    ∃ ps, ps.flatMap Part.switches = ss ∧ lastOut ps = path ∧ values ps = [] := by
  induction ss with
  | nil => exact ⟨[.attached path named], rfl, rfl, rfl⟩
  | cons s ss ih =>
    obtain ⟨hs, hss⟩ := List.ne_and_not_mem_of_not_mem_cons hss
    obtain ⟨ps, hswitches, hout, hvalues⟩ := ih hss
    refine ⟨.word s 9 (Ne.symm hs) (by decide) :: ps, ?_, hout, hvalues⟩
    rw [List.flatMap_cons, hswitches]
    rfl

/-- A request is made with its switches, the file it names, and its values behind two minus
signs. -/
theorem exists_read {q : Request} (named : q.out ≠ "--") : ∃ arguments, read arguments = .ok q := by
  have hmem : ∀ s, s ∈ Switch.all.filter q.asksFor ↔ q.asksFor s := by
    intro s
    have hall : s ∈ Switch.all := by cases s <;> decide
    rw [List.mem_filter, and_iff_right hall]
  have hflags : Switch.out ∉ Switch.all.filter q.asksFor := by
    rw [hmem, q.asksFor_out]
    exact Bool.false_ne_true
  obtain ⟨ps, hswitches, hout, hvalues⟩ := exists_parts hflags named
  have hread := read_parts_behind hvalues q.texts
  rw [hswitches, hout] at hread
  refine ⟨_, hread.trans ?_⟩
  by_cases hhelp : q = .help
  · subst hhelp
    rfl
  · have hnot : Switch.help ∉ Switch.all.filter q.asksFor := by
      rw [hmem, Request.asksFor_help hhelp]
      exact Bool.false_ne_true
    rw [if_neg hnot, asks_request hhelp hmem]

/-! ## Two minus signs are no file -/

/-- A value is the argument it was taken from. -/
theorem eq_of_classify {a text : String} (h : classify a = .ok (.value text)) : text = a := by
  have hunspelled : ∀ {cs : List Char}, unspelled cs = .value text → text = String.ofList cs := by
    intro cs h
    unfold unspelled at h
    split at h
    · exact (Argument.value.inj h).symm
    · cases h
  have hshort : ∀ {cs : List Char}, classifyShort cs = .value text → text = String.ofList cs := by
    intro cs h
    unfold classifyShort at h
    split at h
    · split at h
      · cases h
      · exact hunspelled h
    · exact (Argument.value.inj h).symm
  simp only [classify] at h
  split at h
  · cases h
  · cases h
  · split at h
    · unfold classifyLong at h
      dsimp only at h
      split at h
      · rw [hunspelled (Except.ok.inj h), String.ofList_toList]
      · cases h
      · cases h
    · rw [hshort (Except.ok.inj h), String.ofList_toList]
    · exact (Argument.value.inj (Except.ok.inj h)).symm

theorem attachedValue_ne (text : List Char) : attachedValue text ≠ "--" := by
  unfold attachedValue
  split
  · decide
  · rename_i hne
    exact fun h => hne (by rw [← String.toList_ofList (l := text), h]; rfl)

theorem ending_expandAlone (s : Switch) : (expandAlone s).ending ≠ .value "--" := by
  cases s <;> nofun

theorem ending_attachedValue (text : List Char) : .value (attachedValue text) ≠ Ending.value "--" :=
  fun h => attachedValue_ne text (Ending.value.inj h)

theorem ending_expandShort {s : Switch} {text : List Char} {e : Expansion}
    (h : expandShort s text = .ok e) : e.ending ≠ .value "--" := by
  induction text generalizing s e with
  | nil =>
    rw [← Except.ok.inj h]
    exact ending_expandAlone s
  | cons c text ih =>
    rw [expandShort] at h
    split at h
    · rw [← Except.ok.inj h]
      exact ending_attachedValue _
    · split at h
      · cases h
      · rename_i next _
        cases hnext : expandShort next text with
        | error _ =>
          rw [hnext] at h
          cases h
        | ok more =>
          rw [hnext] at h
          have hmore : more.ending ≠ .value "--" := ih hnext
          rw [← Except.ok.inj h]
          exact hmore

/-- The value that an argument with switches ends with is not two minus signs. -/
theorem ending_expand {s : Switch} {short : Bool} {attached : Option (List Char)} {e : Expansion}
    (h : expand s short attached = .ok e) : e.ending ≠ .value "--" := by
  cases attached with
  | none =>
    rw [← Except.ok.inj h]
    exact ending_expandAlone s
  | some text =>
    rw [expand] at h
    split at h
    · rw [← Except.ok.inj h]
      exact ending_attachedValue text
    · split at h
      · exact ending_expandShort h
      · cases h

theorem empty_ne : "" ≠ "--" := by decide

namespace Collected

theorem out_addValue (c : Collected) (text : String) : (c.addValue text).out = c.out := by
  unfold addValue
  split <;> rfl

theorem out_addRemaining (c : Collected) (b : Bool) (arguments : List String) :
    (c.addRemaining b arguments).out = c.out := by
  unfold addRemaining
  split
  · rfl
  · exact out_addValue ..
  · rfl

theorem out_addEnding (c : Collected) {e : Ending} (h : c.out ≠ "--") (he : e ≠ .value "--") :
    (c.addEnding e).out ≠ "--" := by
  cases e with
  | value text => exact fun heq => he (congrArg Ending.value heq)
  | complete | wantsValue => exact h

theorem out_request (c : Collected) (h : c.out ≠ "--") (hq : c.request = .ok q) :
    q.out ≠ "--" := by
  unfold request at hq
  split at hq
  · nomatch hq
  · split at hq
    · rw [← Except.ok.inj hq]
      exact h
    · rw [← Except.ok.inj hq]
      exact empty_ne

end Collected

/-- Two minus signs never become the file to write. -/
theorem out_follow {remaining : Option (List String)} {b : Bool} {taken : List Argument}
    (h : c.out ≠ "--") (htaken : .value "--" ∉ taken)
    (hq : follow remaining c b taken = .ok q) : q.out ≠ "--" := by
  fun_induction follow remaining c b taken with
  | case1 c b => exact c.out_request h hq
  | case2 c b arguments =>
    exact (c.addRemaining b arguments).out_request (c.out_addRemaining b arguments ▸ h) hq
  | case3 c b text rest ih =>
    exact ih (c.out_addValue text ▸ h) (List.not_mem_of_not_mem_cons htaken) hq
  | case4 c b text rest ih => exact ih h (List.not_mem_of_not_mem_cons htaken) hq
  | case5 | case8 => nomatch hq
  | case6 | case9 =>
    rw [← Except.ok.inj hq]
    exact empty_ne
  | case7 c b s short attached switches hexpand text more hhelp ih =>
    have hmore := List.not_mem_of_not_mem_cons htaken
    have htext : Ending.value text ≠ .value "--" := by
      intro heq
      rw [Ending.value.inj heq] at hmore
      exact hmore List.mem_cons_self
    exact ih ((c.addSwitches switches).out_addEnding h htext)
      (List.not_mem_of_not_mem_cons hmore) hq
  | case10 c b s short attached rest switches ending hcomplete hexpand hhelp ih =>
    exact ih ((c.addSwitches switches).out_addEnding h (ending_expand hexpand))
      (List.not_mem_of_not_mem_cons htaken) hq

/-- No value among what is taken is two minus signs. -/
theorem value_not_mem {arguments : List String} {taken : List Argument}
    (h : List.Forall₂ (fun a t => classify a = .ok t) arguments taken) : .value "--" ∉ taken := by
  induction h with
  | nil => exact List.not_mem_nil
  | cons ha _ ih =>
    intro hmem
    rcases List.mem_cons.mp hmem with rfl | hmem
    · rw [← eq_of_classify ha] at ha
      nomatch ha
    · exact ih hmem

/-- **Every request can be made, unless two minus signs are its file to write.** -/
theorem exists_read_iff (q : Request) : (∃ arguments, read arguments = .ok q) ↔ q.out ≠ "--" := by
  refine ⟨fun ⟨arguments, h⟩ => ?_, exists_read⟩
  unfold read at h
  split at h
  · nomatch h
  · rename_i taken htaken
    have hvalue := value_not_mem (forall₂_of_mapM htaken)
    split at h
    · exact out_follow empty_ne hvalue h
    · exact out_follow empty_ne hvalue h

/-! ## Runs -/

/-- **A run of a command line with one value checks it**, with the settings that its switches and
its last file to write say. -/
theorem run_parts {ps : List Part} {source : String} (hvalues : values ps = [source])
    (hhelp : .help ∉ ps.flatMap Part.switches) (hrepl : .repl ∉ ps.flatMap Part.switches)
    (d : Directory) (stdin : String) : run d stdin (ps.flatMap Part.arguments) =
      (Check.run d
        { tokens := .tokens ∈ ps.flatMap Part.switches, json := .json ∈ ps.flatMap Part.switches,
          pretty := .pretty ∈ ps.flatMap Part.switches, out := lastOut ps }
        (if .string ∈ ps.flatMap Part.switches then .text source else .file source)).map
          fun r => ⟨some r.status, r.stdout, r.stderr, r.directory⟩ := by
  have hread := read_parts ps
  rw [if_neg hhelp, hvalues, asks, if_neg hrepl] at hread
  rw [run, hread]

/-- The status of a check is 0 or 1. -/
theorem status_le_one {d : Directory} {settings : Settings} {source : Source} {r : Report}
    (h : Check.run d settings source = .ok r) : r.status ≤ 1 := by
  unfold Check.run at h
  split at h
  · nomatch h
  · unfold Check.report at h
    dsimp only at h
    split at h
    · nomatch h
    · rw [← Except.ok.inj h]
      dsimp only [Check.status]
      split <;> decide

/-- A command line that cannot be followed leaves a complaint and nothing else. -/
theorem run_refused {arguments : List String} {e : UsageError} (h : read arguments = .error e)
    (d : Directory) (stdin : String) : run d stdin arguments =
      .ok ⟨some 2, "", usage ++ "monkey: error: " ++ e.message ++ "\n", d⟩ := by
  rw [run, h]
  rfl

/-- **The status is 2 if and only if the command line cannot be followed**; then only the complaint
is left, and the files are as before. -/
theorem run_refused_iff (d : Directory) (stdin : String) (arguments : List String) :
    (∃ r, run d stdin arguments = .ok r ∧ r.status? = some 2) ↔
      ∃ e, read arguments = .error e ∧ run d stdin arguments =
        .ok ⟨some 2, "", usage ++ "monkey: error: " ++ e.message ++ "\n", d⟩ := by
  refine ⟨fun ⟨r, hrun, hstatus⟩ => ?_, fun ⟨e, _, hrun⟩ => ⟨_, hrun, rfl⟩⟩
  cases hread : read arguments with
  | error e => exact ⟨e, rfl, run_refused hread d stdin⟩
  | ok q =>
    rw [run, hread] at hrun
    match q with
    | .help | .session _ =>
      rw [← Except.ok.inj hrun] at hstatus
      nomatch hstatus
    | .check source settings =>
      cases hcheck : Check.run d settings source with
      | error e =>
        simp only [hcheck] at hrun
        nomatch hrun
      | ok report =>
        simp only [hcheck] at hrun
        rw [← Except.ok.inj hrun] at hstatus
        have htwo : report.status = 2 := Option.some.inj hstatus
        have hle := status_le_one hcheck
        omega

end MonkeyFrontend.CommandLine
