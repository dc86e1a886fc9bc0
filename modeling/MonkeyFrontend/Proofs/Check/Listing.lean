import MonkeyFrontend.Check.Report
import MonkeyFrontend.Proofs.Text.Integer
import MonkeyFrontend.Proofs.Text.Quoted

/-! # Shown tokens can be read back

What a check shows of the tokens of a source has a line for each token and in each line three
fields between tabs, the place with a colon in it, the kind and the quoted literal.  Tokens of no
kind carry any character whatever; but nothing that is quoted holds a control character
(`Token.not_isControl_fields`), so the separators are the only ones, and every token is found again
from its line (`Token.ofListing?_listing`).
-/
namespace MonkeyFrontend

/-! ## Control characters -/

/-- Whether a character is a control character (general category "control"). -/
def isControl (c : Char) : Bool :=
  decide (c.toNat < 0x20) || decide (0x7f ≤ c.toNat) && decide (c.toNat < 0xa0)

/-- A character that can be shown is no control character. -/
theorem not_isControl_of_isPrintable {c : Char} (h : Text.isPrintable c) : ¬ isControl c := by
  have hranges : ∃ rest, Text.unprintable = (0x0, 0x1f) :: (0x7f, 0xa0) :: rest := ⟨_, rfl⟩
  obtain ⟨rest, hrest⟩ := hranges
  simp only [Text.isPrintable, hrest, Text.covers_cons, isControl, Bool.not_eq_true',
    Bool.and_eq_false_iff, Bool.or_eq_false_iff, Bool.or_eq_true, Bool.and_eq_true,
    decide_eq_true_eq, decide_eq_false_iff_not] at h ⊢
  omega

/-- A text without control characters is all of what stands before a tab or a line end. -/
theorem not_mem_of_not_isControl {mark : Char} {cs : List Char} (hmark : isControl mark)
    (h : ∀ c ∈ cs, ¬ isControl c) : mark ∉ cs := fun hmem => h mark hmem hmark

/-- Joining texts without control characters by one puts in no other. -/
theorem filter_isControl_intercalate {mark : Char} (hmark : isControl mark)
    (ls : List (List Char)) : ([mark].intercalate ls).filter isControl =
      [mark].intercalate (ls.map (List.filter isControl)) := by
  induction ls with
  | nil => rfl
  | cons l ls ih =>
    cases ls with
    | nil => simp [List.intercalate_singleton]
    | cons m ls =>
      rw [List.intercalate_cons_cons, List.filter_append, List.filter_append, ih]
      simp [List.intercalate_cons_cons, hmark]

namespace Token

/-! ## The fields of a line -/

/-- The line and the column of a token, with a colon between them. -/
def placeField (t : Token) : List (List Char) :=
  [(toString t.position.line).toList, (toString t.position.column).toList]

/-- The fields of the line of a token: its place, its kind and its text. -/
def fields (t : Token) : List (List Char) :=
  [[':'].intercalate t.placeField, t.kind.text.toList, (Text.quote t.literal).toList]

theorem toList_listing (t : Token) : t.listing.toList = ['\t'].intercalate t.fields := by
  simp [listing, fields, placeField, List.intercalate_cons_cons, List.intercalate_singleton]

/-- An integer is written without control characters and without a colon. -/
theorem not_isControl_integer {i : Int} {c : Char} (hc : c ∈ (toString i).toList) :
    ¬ isControl c ∧ c ≠ ':' := by
  rcases Text.mem_toString hc with rfl | hdigit
  · decide
  · simp only [Char.isDigit, Bool.and_eq_true, decide_eq_true_eq, UInt32.le_iff_toNat_le,
      ge_iff_le] at hdigit
    have hlow : 48 ≤ c.toNat := hdigit.1
    have hhigh : c.toNat ≤ 57 := hdigit.2
    refine ⟨?_, ?_⟩
    · simp only [isControl, Bool.or_eq_true, Bool.and_eq_true, decide_eq_true_eq]
      omega
    · rintro rfl
      exact absurd hhigh (by decide)

/-- No field holds a control character. -/
theorem not_isControl_fields (t : Token) : ∀ field ∈ t.fields, ∀ c ∈ field, ¬ isControl c := by
  have hkind : ∀ c ∈ t.kind.text.toList, ¬ isControl c := by
    have hall : t.kind.text.toList.all fun c => !isControl c := by cases t.kind <;> rfl
    simpa using hall
  have hplace : ∀ c ∈ [':'].intercalate t.placeField, ¬ isControl c := by
    simp only [placeField, List.intercalate_cons_cons, List.intercalate_singleton,
      List.forall_mem_append, List.forall_mem_singleton]
    exact ⟨⟨fun c hc => (not_isControl_integer hc).1, by decide⟩,
      fun c hc => (not_isControl_integer hc).1⟩
  simp only [fields, List.forall_mem_cons]
  exact ⟨hplace, hkind,
    fun c hc => not_isControl_of_isPrintable (Text.isPrintable_of_mem_quote hc),
    List.forall_mem_nil _⟩

theorem splitOn_listing (t : Token) : t.listing.toList.splitOn '\t' = t.fields := by
  rw [toList_listing]
  exact List.splitOn_intercalate '\t'
    (fun field h => not_mem_of_not_isControl rfl (t.not_isControl_fields field h))
    (List.cons_ne_nil _ _)

/-- The tabs are the control characters of a line. -/
theorem filter_isControl_listing (t : Token) :
    t.listing.toList.filter isControl = ['\t', '\t'] := by
  have hnone : t.fields.map (List.filter isControl) = t.fields.map fun _ => [] :=
    List.map_congr_left fun field h => List.filter_eq_nil_iff.mpr (t.not_isControl_fields field h)
  rw [toList_listing, filter_isControl_intercalate rfl, hnone]
  rfl

/-! ## Reading a line -/

/-- What a reader takes that must take all of a text. -/
def whole? {α : Type} {cs : List Char} (o : Option (Text.Portion α cs)) : Option α :=
  match o with
  | none => none
  | some p => if p.rest = [] then some p.value else none

theorem whole?_of_reads {α : Type} {a : α} {cs : List Char} {o : Option (Text.Portion α cs)}
    (h : Text.Reads o a []) : whole? o = some a := by
  obtain ⟨_, rfl⟩ := h
  rfl

/-- The token that a line is written for, field by field. -/
def ofListing? (cs : List Char) : Option Token :=
  match cs.splitOn '\t' with
  | [place, kind, literal] =>
    match place.splitOn ':' with
    | [line, column] => do
      let line ← whole? (Text.integer? line)
      let column ← whole? (Text.integer? column)
      let kind ← Kind.ofText? (String.ofList kind)
      let literal ← whole? (Text.unquote? literal)
      return ⟨kind, String.ofList literal, ⟨line, column⟩⟩
    | _ => none
  | _ => none

/-- **A token is found again from its line.** -/
theorem ofListing?_listing (t : Token) : ofListing? t.listing.toList = some t := by
  have hplace : ([':'].intercalate t.placeField).splitOn ':' = t.placeField := by
    refine List.splitOn_intercalate ':' ?_ (List.cons_ne_nil _ _)
    simp only [placeField, List.forall_mem_cons]
    exact ⟨fun h => (not_isControl_integer h).2 rfl, fun h => (not_isControl_integer h).2 rfl,
      List.forall_mem_nil _⟩
  have hinteger : ∀ i : Int, whole? (Text.integer? (toString i).toList) = some i := by
    intro i
    have hread := @Text.reads_integer i [] nofun
    rw [List.append_nil] at hread
    exact whole?_of_reads hread
  have hquote : whole? (Text.unquote? (Text.quote t.literal).toList) = some t.literal.toList := by
    have hread := Text.reads_quoteChars t.literal.toList []
    rw [List.append_nil] at hread
    rw [Text.quote, String.toList_ofList]
    exact whole?_of_reads hread
  unfold ofListing?
  rw [splitOn_listing, fields]
  dsimp only
  rw [hplace, placeField]
  simp [hinteger, hquote, Kind.ofText?_text]

end Token

namespace Check

/-- The lines of a check that shows tokens. -/
def dump (source : String) : String := String.intercalate "\n" ((tokenize source).map Token.listing)

theorem toList_dump (source : String) : (dump source).toList =
    ['\n'].intercalate ((tokenize source).map fun t => t.listing.toList) := by
  rw [dump, String.toList_intercalate, List.map_map]
  rfl

theorem splitOn_dump (source : String) :
    (dump source).toList.splitOn '\n' = (tokenize source).map fun t => t.listing.toList := by
  rw [toList_dump]
  refine List.splitOn_intercalate '\n' ?_ ?_
  · intro l hl
    obtain ⟨t, -, rfl⟩ := List.mem_map.mp hl
    intro hend
    have hcontrol := List.mem_filter.mpr ⟨hend, (rfl : isControl '\n' = true)⟩
    rw [t.filter_isControl_listing] at hcontrol
    exact absurd hcontrol (by decide)
  · rw [ne_eq, List.map_eq_nil_iff]
    exact List.append_ne_nil_of_right_ne_nil _ (List.cons_ne_nil _ _)

/-- The control characters of the lines are the tabs in them and the line ends between them. -/
theorem filter_isControl_dump (source : String) : (dump source).toList.filter isControl =
    ['\n'].intercalate ((tokenize source).map fun _ => ['\t', '\t']) := by
  rw [toList_dump, filter_isControl_intercalate rfl, List.map_map]
  exact congrArg _ (List.map_congr_left fun t _ => t.filter_isControl_listing)

/-- What a check of a text leaves behind that shows its tokens. -/
theorem run_tokens (d : Directory) (source : String) : ∃ r,
    run d { tokens := true } (.text source) = .ok r ∧ r.stdout = dump source ++ "\n" := by
  simp [run, load, report, save, examine, stdout, dump]

/-- Every token is found again from its piece. -/
theorem ofListing?_dump (source : String) :
    ((dump source).toList.splitOn '\n').map Token.ofListing? = (tokenize source).map some := by
  rw [splitOn_dump, List.map_map]
  exact List.map_congr_left fun t _ => t.ofListing?_listing

/-- **Shown tokens can be read back.**  A check that shows the tokens of a source succeeds, whatever
the source.  What it shows falls into one piece for each token at its line ends, each piece falls
into the three fields of its token at its tabs, and the token is found again from these; there are
no other control characters.  So two sources show the same exactly when they have the same tokens at
the same places. -/
theorem listing_decodes (d : Directory) (source other : String) : ∃ r s shown,
    run d { tokens := true } (.text source) = .ok r ∧
      run d { tokens := true } (.text other) = .ok s ∧ r.stdout = shown ++ "\n" ∧
      (shown.toList.splitOn '\n').map (List.splitOn '\t') = (tokenize source).map Token.fields ∧
      (shown.toList.splitOn '\n').map Token.ofListing? = (tokenize source).map some ∧
      shown.toList.filter isControl =
        ['\n'].intercalate ((tokenize source).map fun _ => ['\t', '\t']) ∧
      (r.stdout = s.stdout ↔ tokenize source = tokenize other) := by
  obtain ⟨r, hr, hsource⟩ := run_tokens d source
  obtain ⟨s, hs, hother⟩ := run_tokens d other
  have hfields : ((dump source).toList.splitOn '\n').map (List.splitOn '\t') =
      (tokenize source).map Token.fields := by
    rw [splitOn_dump, List.map_map]
    exact List.map_congr_left fun t _ => t.splitOn_listing
  refine ⟨r, s, dump source, hr, hs, hsource, hfields, ofListing?_dump source,
    filter_isControl_dump source, ?_⟩
  rw [hsource, hother, String.append_left_inj]
  constructor
  · intro h
    have htokens := ofListing?_dump source
    rw [h, ofListing?_dump other] at htokens
    exact (List.map_inj_right fun _ _ => Option.some.inj).mp htokens.symm
  · intro h
    rw [dump, dump, h]

end Check
end MonkeyFrontend
