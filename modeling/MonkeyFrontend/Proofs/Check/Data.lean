import MonkeyFrontend.Check.Report
import MonkeyFrontend.Proofs.Json.RoundTrip
import MonkeyFrontend.Proofs.Parser.Consistency
import MonkeyFrontend.Proofs.Source.Tiling
import MonkeyFrontend.Proofs.Tree.Figures

/-! # A shown tree can be read back

What a check shows of the tree of a source is decoded to the data of this tree, whatever the source
(`data_decodes`).  Nothing can go wrong on the way: the figures in the data are those of lines,
columns and integer literals, and the parser has refused every literal with too many digits.
-/
namespace MonkeyFrontend

/-- What an integer in the data of a source can be: a value with no more digits than a literal may
have, or the number of a line or a column. -/
def InRange (source : String) (i : Int) : Prop :=
  0 ≤ i ∧ (i.natAbs < 10 ^ Parser.maxDigits ∨ i ≤ source.length + 1)

namespace Parser

/-- The value of a literal that is not too long. -/
theorem inRange_decimalValue {source w : String} (hdigits : ∀ c ∈ w.toList, isDigit c)
    (hlength : w.length ≤ maxDigits) : InRange source (Int.ofNat (decimalValue w)) := by
  have hlt : decimalValue w < 10 ^ maxDigits :=
    Nat.lt_of_lt_of_le (decimalValue_lt hdigits) (Nat.pow_le_pow_right (by decide) hlength)
  exact ⟨Int.natCast_nonneg _, Or.inl hlt⟩

/-- The figures of every node of a parsed tree are in range. -/
theorem figures_parse (source : String) :
    ∀ n ∈ (parse source).1.nodes, n.Figures (InRange source) := by
  intro n hn
  obtain ⟨hconsistent, hspelled⟩ := sound_parse source n hn
  have hposition : ∀ t ∈ n.token?, InRange source t.position.line ∧
      InRange source t.position.column := by
    intro t ht
    have htaken := (sourced_parse source).taken t (List.mem_filterMap.mpr ⟨n, hn, ht⟩)
    obtain ⟨hline, hcolumn⟩ := position_le_of_mem_tokenize (List.dropLast_subset _ htaken.1)
    exact ⟨⟨hline.1, Or.inr hline.2⟩, ⟨hcolumn.1, Or.inr hcolumn.2⟩⟩
  constructor
  case line => exact fun t ht => (hposition t ht).1
  case column => exact fun t ht => (hposition t ht).2
  case value =>
    rintro t v rfl
    obtain ⟨hkind, hlength, rfl⟩ := hconsistent
    have hdigits : Spells .int t.literal := hkind ▸ hspelled t rfl
    exact inRange_decimalValue hdigits.digits.2 hlength

end Parser

namespace Check

/-- What a check of a text leaves behind that shows its tree as data. -/
theorem run_json (d : Directory) (source : String) : ∃ r,
    run d { json := true } (.text source) = .ok r ∧
      r.stdout = (Parser.parse source).1.toJson.layout ++ "\n" := by
  simp [run, load, report, save, examine, stdout]

/-- **A shown tree can be read back.**  A check that shows the tree of a source as data succeeds,
whatever the source; what it shows is decoded to the data of the tree, in which every integer is in
range and no record names a member twice.  So two sources show the same exactly when their trees
have the same data, and this is when the trees have the same canonical form. -/
theorem data_decodes (d : Directory) (source other : String) : ∃ r s shown,
    run d { json := true } (.text source) = .ok r ∧ run d { json := true } (.text other) = .ok s ∧
      r.stdout = shown ++ "\n" ∧ Json.decode shown = some (Parser.parse source).1.toJson ∧
      (Parser.parse source).1.toJson.Fits (InRange source) ∧
      (r.stdout = s.stdout ↔ (Parser.parse source).1.toJson = (Parser.parse other).1.toJson) ∧
      (r.stdout = s.stdout ↔
        (Parser.parse source).1.canonical = (Parser.parse other).1.canonical) := by
  obtain ⟨r, hr, hsource⟩ := run_json d source
  obtain ⟨s, hs, hother⟩ := run_json d other
  have hshown : r.stdout = s.stdout ↔
      (Parser.parse source).1.toJson = (Parser.parse other).1.toJson := by
    rw [hsource, hother, String.append_left_inj]
    exact Json.layout_injective.eq_iff
  have hcanonical := Program.toJson_eq_iff (Parser.sound_parse source) (Parser.sound_parse other)
  exact ⟨r, s, _, hr, hs, hsource, Json.decode_layout _,
    Program.fits_toJson (Parser.figures_parse source), hshown, hshown.trans hcanonical⟩

end Check
end MonkeyFrontend
