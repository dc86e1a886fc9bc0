import Mathlib.Data.List.Forall2
import MonkeyFrontend.Proofs.CommandLine.Parts

/-! # What command lines ask for

A command line is followed part by part.  What it asks for depends on the switches in it, the last
file to write and the values, and not on the order of the parts, nor on how a switch is spelled
(`read_parts`).  Behind two minus signs any text can be the source (`read_parts_behind`).

The induction is on the parts, for what was collected before (`follow_parts`); one step is
`follow_part`.  What is collected of all parts is then computed from the parts alone
(`foldl_addPart`).
-/
namespace MonkeyFrontend.CommandLine

/-! ## From arguments to parts -/

/-- Each argument is taken by itself. -/
theorem forall₂_of_mapM {arguments : List String} {taken : List Argument}
    (h : arguments.mapM classify = .ok taken) :
    List.Forall₂ (fun a t => classify a = .ok t) arguments taken := by
  induction arguments generalizing taken with
  | nil =>
    cases h
    exact .nil
  | cons a arguments ih =>
    rw [List.mapM_cons] at h
    cases ha : classify a with
    | error e =>
      rw [ha] at h
      nomatch h
    | ok t =>
      cases hmore : arguments.mapM classify with
      | error e =>
        rw [ha, hmore] at h
        nomatch h
      | ok ts =>
        rw [ha, hmore] at h
        cases h
        exact .cons ha (ih hmore)

/-- No argument that is taken for something is two minus signs. -/
theorem ne_of_forall₂ {arguments : List String} {taken : List Argument}
    (h : List.Forall₂ (fun a t => classify a = .ok t) arguments taken) :
    ∀ a ∈ arguments, a ≠ "--" := by
  induction h with
  | nil => exact List.forall_mem_nil _
  | cons ha _ ih =>
    refine List.forall_mem_cons.mpr ⟨?_, ih⟩
    rintro rfl
    nomatch ha

theorem read_of_taken {arguments : List String} {taken : List Argument}
    (h : arguments.mapM classify = .ok taken) : read arguments = follow none {} false taken := by
  have hne : ∀ a ∈ arguments, (a != "--") = true :=
    fun a ha => bne_iff_ne.mpr (ne_of_forall₂ (forall₂_of_mapM h) a ha)
  rw [read, List.takeWhile_eq_self_iff.mpr hne, List.dropWhile_eq_nil_iff.mpr hne, h]

/-- Two minus signs end what is taken. -/
theorem read_of_taken_behind {arguments : List String} {taken : List Argument}
    (h : arguments.mapM classify = .ok taken) (texts : List String) :
    read (arguments ++ "--" :: texts) = follow (some texts) {} false taken := by
  have hne : ∀ a ∈ arguments, (a != "--") = true :=
    fun a ha => bne_iff_ne.mpr (ne_of_forall₂ (forall₂_of_mapM h) a ha)
  have hstop : ("--" :: texts).takeWhile (· != "--") = [] := rfl
  have hrest : ("--" :: texts).dropWhile (· != "--") = "--" :: texts := rfl
  rw [read, List.takeWhile_append_of_pos hne, List.dropWhile_append_of_pos hne, hstop, hrest,
    List.append_nil, h]

/-- Parts are taken one by one. -/
theorem mapM_classify_parts (ps : List Part) :
    (ps.flatMap Part.arguments).mapM classify = .ok (ps.flatMap Part.taken) := by
  induction ps with
  | nil => rfl
  | cons p ps ih =>
    rw [List.flatMap_cons, List.mapM_append, p.mapM_classify, ih, List.flatMap_cons]
    rfl

/-! ## Following a part -/

/-- The letters of switches without a value are these switches. -/
theorem expandShort_letters {s : Switch} {more : List Switch}
    (flags : ∀ x ∈ s :: more, x ≠ .out ∧ x.letter?.isSome) :
    expandShort s (letters more) = .ok ⟨s :: more, .complete⟩ := by
  have hvalue : ∀ x : Switch, x ≠ .out → x.takesValue = false :=
    fun x hx => beq_eq_false_iff_ne.mpr hx
  induction more generalizing s with
  | nil =>
    have hs := hvalue s (flags s List.mem_cons_self).1
    rw [letters, List.filterMap_nil, expandShort, expandAlone, if_neg (by simp [hs])]
  | cons x more ih =>
    have hs := hvalue s (flags s List.mem_cons_self).1
    obtain ⟨c, hc⟩ :=
      Option.isSome_iff_exists.mp (flags x (List.mem_cons_of_mem _ List.mem_cons_self)).2
    rw [letters_cons hc, expandShort, if_neg (by simp [hs]), Switch.ofLetter?_of_letter? hc]
    dsimp only
    rw [ih fun y hy => flags y (List.mem_cons_of_mem _ hy)]
    rfl

variable {remaining : Option (List String)} {c : Collected} {b : Bool}

/-- Switches without a value are collected, and the help is shown at once. -/
theorem follow_flags {s : Switch} {short : Bool} {attached : Option (List Char)} {ss : List Switch}
    (h : expand s short attached = .ok ⟨ss, .complete⟩) (rest : List Argument) :
    follow remaining c b (.switch s short attached :: rest) =
      if .help ∈ ss then .ok .help else follow remaining (c.addSwitches ss) false rest := by
  rw [follow, h]
  simp only [List.contains_iff_mem]
  rfl

theorem Collected.addSwitches_nil (c : Collected) : c.addSwitches [] = c := by
  rw [addSwitches, List.append_nil]

/-- What was collected, and a part. -/
def Collected.addPart (c : Collected) : Part → Collected
  | .word s _ _ _ => c.addSwitches [s]
  | .bundle s more _ => c.addSwitches (s :: more)
  | .out _ path _ | .attached path _ => { c with out := path }
  | .value text _ => c.addValue text

/-- **A part is collected wherever it stands.** -/
theorem follow_part (p : Part) (rest : List Argument) :
    ∃ b', follow remaining c b (p.taken ++ rest) =
      if .help ∈ p.switches then .ok .help else follow remaining (c.addPart p) b' rest := by
  cases p with
  | word s cut flag unique =>
    have hvalue : s.takesValue = false := beq_eq_false_iff_ne.mpr flag
    have hexpand : expand s false none = .ok ⟨[s], .complete⟩ := by
      rw [expand, expandAlone, if_neg (by simp [hvalue])]
    exact ⟨_, follow_flags hexpand rest⟩
  | bundle s more flags =>
    have hexpand := expandShort_letters flags
    cases more with
    | nil =>
      have halone : expand s true none = .ok ⟨[s], .complete⟩ := hexpand
      exact ⟨_, follow_flags halone rest⟩
    | cons x more =>
      have hvalue : s.takesValue = false :=
        beq_eq_false_iff_ne.mpr (flags s List.mem_cons_self).1
      obtain ⟨d, hd⟩ :=
        Option.isSome_iff_exists.mp (flags x (List.mem_cons_of_mem _ List.mem_cons_self)).2
      have hattached : expand s true (some (letters (x :: more))) =
          .ok ⟨s :: x :: more, .complete⟩ := by
        rw [expand, if_neg (by simp [hvalue]), if_pos (by simp [letters_cons hd]), hexpand]
      exact ⟨_, follow_flags hattached rest⟩
  | out short path plain =>
    have hexpand : expand .out short none = .ok ⟨[], .wantsValue⟩ := rfl
    refine ⟨false, ?_⟩
    show follow _ _ _ (.switch .out short none :: .value path :: rest) = _
    rw [follow, hexpand]
    dsimp only
    rw [Collected.addSwitches_nil]
    rfl
  | attached path named =>
    have hpath : attachedValue path.toList = path := by
      have hne : path.toList ≠ ['-', '-'] := fun h => named (String.toList_inj.mp h)
      rw [attachedValue, if_neg hne, String.ofList_toList]
    have hexpand : expand .out false (some path.toList) =
        .ok ⟨[], .value (attachedValue path.toList)⟩ := rfl
    refine ⟨false, ?_⟩
    show follow _ _ _ (.switch .out false (some path.toList) :: rest) = _
    rw [follow, hexpand, hpath]
    dsimp only
    rw [Collected.addSwitches_nil]
    rfl
  | value text plain => exact ⟨_, rfl⟩

/-! ## Following all parts -/

/-- The values among some parts. -/
def values (ps : List Part) : List String := ps.filterMap Part.value?

theorem values_cons (p : Part) (ps : List Part) :
    values (p :: ps) = p.value?.toList ++ values ps := by
  cases h : p.value? <;> simp [values, h]

/-- The last file to write among some parts; an empty name is none. -/
def lastOut (ps : List Part) : String := (ps.filterMap Part.out?).getLast?.getD ""

/-- **All parts are collected in turn**, unless the help is among them. -/
theorem follow_parts (ps : List Part) :
    ∃ b', follow remaining c b (ps.flatMap Part.taken) =
      if .help ∈ ps.flatMap Part.switches then .ok .help
      else follow remaining (ps.foldl Collected.addPart c) b' [] := by
  induction ps generalizing c b with
  | nil => exact ⟨b, rfl⟩
  | cons p ps ih =>
    obtain ⟨b₁, hstep⟩ := @follow_part remaining c b p (ps.flatMap Part.taken)
    obtain ⟨b₂, hrest⟩ := @ih (c.addPart p) b₁
    refine ⟨b₂, ?_⟩
    rw [List.flatMap_cons, hstep, hrest, List.flatMap_cons, List.foldl_cons]
    by_cases hp : Switch.help ∈ p.switches
    · rw [if_pos hp, if_pos (List.mem_append_left _ hp)]
    · rw [if_neg hp]
      simp only [List.mem_append, hp, false_or]

/-- What is collected of some parts: all switches, the last file, and the values, of which the
first is the source. -/
theorem foldl_addPart (c : Collected) (ps : List Part) : ps.foldl Collected.addPart c =
    { switches := c.switches ++ ps.flatMap Part.switches
      source? := (c.source?.toList ++ values ps).head?
      out := (ps.filterMap Part.out?).getLast?.getD c.out
      extra := c.extra ++ (c.source?.toList ++ values ps).tail } := by
  induction ps generalizing c with
  | nil =>
    obtain ⟨switches, source?, out, extra⟩ := c
    cases source? <;> simp [values]
  | cons p ps ih =>
    rw [List.foldl_cons, ih, values_cons]
    cases p with
    | word | bundle =>
      simp [Collected.addPart, Collected.addSwitches, Part.switches, Part.value?, Part.out?]
    | out | attached =>
      simp [Collected.addPart, Part.switches, Part.value?, Part.out?, List.getLast?_cons]
    | value text plain =>
      cases hs : c.source? with
      | none =>
        simp [Collected.addPart, Collected.addValue, hs, Part.switches, Part.value?, Part.out?]
      | some source =>
        simp [Collected.addPart, Collected.addValue, Collected.addExtra, hs, Part.switches,
          Part.value?, Part.out?]

/-- **What a command line asks for**, by its switches, its file to write and its values. -/
def asks (switches : List Switch) (out : String) : List String → Except UsageError Request
  | _ :: text :: more => .error (.unrecognized (text :: more))
  | [source] =>
    if .repl ∈ switches then .ok (.session (.verbose ∈ switches))
    else
      .ok (.check (if .string ∈ switches then .text source else .file source)
        { tokens := .tokens ∈ switches, json := .json ∈ switches, pretty := .pretty ∈ switches,
          out := out })
  | [] => .ok (.session (.verbose ∈ switches))

theorem Collected.has_eq (c : Collected) (s : Switch) : c.has s = decide (s ∈ c.switches) :=
  List.elem_eq_mem ..

/-- What is collected asks for this. -/
theorem request_eq_asks {texts : List String} (hsource : c.source? = texts.head?)
    (hextra : c.extra = texts.tail) : c.request = asks c.switches c.out texts := by
  unfold Collected.request
  rw [hextra, hsource]
  match texts with
  | [] => simp [asks, Collected.has_eq]
  | [source] =>
    by_cases hrepl : Switch.repl ∈ c.switches
    · simp [asks, Collected.has_eq, hrepl]
    · simp [asks, Collected.has_eq, hrepl, Collected.settings]
  | _ :: text :: more => simp [asks]

/-- **A command line asks for what its parts say**, in whatever order they stand. -/
theorem read_parts (ps : List Part) : read (ps.flatMap Part.arguments) =
    if .help ∈ ps.flatMap Part.switches then .ok .help
    else asks (ps.flatMap Part.switches) (lastOut ps) (values ps) := by
  obtain ⟨b, hfollow⟩ := @follow_parts none {} false ps
  have hrequest : (ps.foldl Collected.addPart {}).request =
      asks (ps.flatMap Part.switches) (lastOut ps) (values ps) := by
    rw [foldl_addPart]
    exact request_eq_asks rfl rfl
  rw [read_of_taken (mapM_classify_parts ps), hfollow, follow, hrequest]

example : read ["-tj", "main.monkey", "--pre", "-o", "tree.json"] =
    .ok (.check (.file "main.monkey")
      { tokens := true, json := true, pretty := true, out := "tree.json" }) := by
  rfl

/-- **Behind two minus signs every text is a value.** -/
theorem read_parts_behind {ps : List Part} (hvalues : values ps = []) (texts : List String) :
    read (ps.flatMap Part.arguments ++ "--" :: texts) =
      if .help ∈ ps.flatMap Part.switches then .ok .help
      else asks (ps.flatMap Part.switches) (lastOut ps) texts := by
  obtain ⟨b, hfollow⟩ := @follow_parts (some texts) {} false ps
  have hrequest : ((ps.foldl Collected.addPart {}).addRemaining b texts).request =
      asks (ps.flatMap Part.switches) (lastOut ps) texts := by
    rw [foldl_addPart, hvalues]
    cases texts with
    | nil => exact request_eq_asks rfl rfl
    | cons text more => exact request_eq_asks rfl rfl
  rw [read_of_taken_behind (mapM_classify_parts ps), hfollow, follow, hrequest]

end MonkeyFrontend.CommandLine
