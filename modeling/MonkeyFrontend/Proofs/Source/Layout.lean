import Mathlib.Data.List.Basic
import MonkeyFrontend.Proofs.Source.Cutting

/-! # Laying out tokens

How a text is put together so that it is cut into given tokens: each piece spells a token,
pieces of letters or of digits do not meet, and gaps may stand between the pieces.
-/
namespace MonkeyFrontend

/-- Whether two texts can stand side by side: no letter meets a letter, and no digit a digit. -/
def Apart (a b : List Char) : Prop :=
  ∀ c ∈ a.getLast?, ∀ d ∈ b.head?, ¬ (isLetter c ∧ isLetter d ∨ isDigit c ∧ isDigit d)

theorem apart_nil (a : List Char) : Apart a [] := nofun

/-- Anything may stand before what is neither letter nor digit. -/
theorem apart_cons {a b : List Char} {d : Char} (hl : ¬ isLetter d) (hd : ¬ isDigit d) :
    Apart a (d :: b) := by
  rintro c _ x ⟨⟩ (⟨_, h⟩ | ⟨_, h⟩)
  · exact hl h
  · exact hd h

/-- Only the head of what stands behind counts. -/
theorem Apart.append {a b : List Char} (h : Apart a b) (hne : b ≠ []) (c : List Char) :
    Apart a (b ++ c) := by
  intro x hx d hd
  rw [List.head?_append_of_ne_nil _ hne] at hd
  exact h x hx d hd

/-! ## How a text opens -/

/-- Whether a text begins with a letter, a digit or a parenthesis, as every value does. -/
def Opens (text : List Char) : Prop := ∃ c ∈ text.head?, isLetter c ∨ isDigit c ∨ c = '('

namespace Opens

variable {a : List Char}

theorem append (h : Opens a) (b : List Char) : Opens (a ++ b) := by
  obtain ⟨c, hc, hopen⟩ := h
  exact ⟨c, List.mem_head?_append_of_mem_head? hc, hopen⟩

theorem ne_nil (h : Opens a) : a ≠ [] := by
  rintro rfl
  obtain ⟨c, hc, _⟩ := h
  contradiction

theorem head_ne (h : Opens a) : a.head? ≠ some '=' := by
  obtain ⟨c, hc, hopen⟩ := h
  rw [Option.mem_def.mp hc]
  rintro ⟨⟩
  exact absurd hopen (by decide)

/-- A run of letters or of digits opens. -/
theorem of_run {w : String} (hne : w ≠ "")
    (h : (∀ c ∈ w.toList, isLetter c) ∨ ∀ c ∈ w.toList, isDigit c) : Opens w.toList := by
  obtain ⟨c, hc⟩ : ∃ c, c ∈ w.toList.head? := Option.isSome_iff_exists.mp (by simpa using hne)
  have hmem : c ∈ w.toList := List.mem_of_mem_head? hc
  rcases h with h | h
  · exact ⟨c, hc, Or.inl (h c hmem)⟩
  · exact ⟨c, hc, Or.inr (Or.inl (h c hmem))⟩

end Opens

namespace Spells

variable {k : Kind} {w : String}

/-- Only an operator or delimiter spells the kind of one. -/
theorem mem_symbols (h : Spells k w) (hk : k ∈ Kind.symbols.map Prod.snd) :
    (w, k) ∈ Kind.symbols := by
  have hkeywords : ∀ p ∈ Kind.keywords, p.2 ∉ Kind.symbols.map Prod.snd := by decide
  cases h with
  | keyword hmem => exact absurd hk (hkeywords _ hmem)
  | symbol hmem => exact hmem
  | name | number | other => exact absurd hk (by decide)

/-- A keyword, a name and a number open. -/
theorem opens (h : Spells k w) (hk : k ∉ Kind.illegal :: Kind.symbols.map Prod.snd) :
    Opens w.toList := by
  cases h with
  | keyword hmem =>
    obtain ⟨hne, hall⟩ := letters_of_keyword hmem
    exact .of_run hne (Or.inl hall)
  | name hne hall => exact .of_run hne (Or.inl hall)
  | number hne hall => exact .of_run hne (Or.inr hall)
  | symbol hmem => exact absurd (List.mem_cons_of_mem _ (List.mem_map_of_mem hmem)) hk
  | other => exact absurd List.mem_cons_self hk

end Spells

/-! ## Cuts from the end of a text -/

/-- Where two texts stand apart, a token that opens stops between them. -/
theorem stops_of_apart {w : String} {tail : List Char} (hopen : Opens w.toList)
    (h : Apart w.toList tail) : Stops w tail := by
  obtain ⟨c, hc⟩ : ∃ c, c ∈ w.toList.getLast? :=
    ⟨_, List.getLast?_eq_getLast_of_ne_nil hopen.ne_nil⟩
  have hmem : c ∈ w.toList := List.mem_of_mem_getLast? hc
  refine ⟨fun hw d hd hdl => ?_, fun hw d hd hdd => ?_, fun hw => ?_⟩
  · exact h c hc d hd (Or.inl ⟨hw c hmem, hdl⟩)
  · exact h c hc d hd (Or.inr ⟨hw c hmem, hdd⟩)
  · obtain ⟨x, hx, hopen⟩ := hopen
    rcases hw with rfl | rfl
    · obtain rfl : x = '=' := by simpa using hx.symm
      exact absurd hopen (by decide)
    · obtain rfl : x = '!' := by simpa using hx.symm
      exact absurd hopen (by decide)

/-- An operator or delimiter stops where no equals sign follows, and most of them anyway. -/
theorem stops_symbol {w : String} {k : Kind} {tail : List Char} (hmem : (w, k) ∈ Kind.symbols)
    (h : w = "=" ∨ w = "!" → tail.head? ≠ some '=') : Stops w tail := by
  obtain ⟨c, hl, hd, hw⟩ := symbol_cases hmem
  have hc : c ∈ w.toList := by rcases hw with ⟨hw, _⟩ | ⟨hw, _⟩ <;> simp [hw]
  exact stops_other hc hl hd h

namespace Cuts

variable {before tail : List Char} {ts : List Token} {stop : Position}

/-- A gap character before a cut text. -/
theorem skip {c : Char} (hc : isGap c) (h : Cuts (before ++ [c]) tail ts stop) :
    Cuts before (c :: tail) ts stop := by
  cases h with
  | gap hgap =>
    rw [List.append_assoc, List.singleton_append]
    exact .gap (List.forall_mem_cons.mpr ⟨hc, hgap⟩)
  | @token _ gap k w tail ts _ hgap hspell hstop h =>
    have hassoc : before ++ [c] ++ gap = before ++ c :: gap := by
      rw [List.append_assoc, List.singleton_append]
    rw [hassoc] at h ⊢
    exact @Cuts.token before (c :: gap) k w tail ts stop (List.forall_mem_cons.mpr ⟨hc, hgap⟩)
      hspell hstop h

/-- A piece that spells a token and stops before a cut text. -/
theorem piece {k : Kind} {w : String} (hspell : Spells k w) (hstop : Stops w tail)
    (h : Cuts (before ++ w.toList) tail ts stop) :
    Cuts before (w.toList ++ tail) (⟨k, w, .behind before⟩ :: ts) stop := by
  have hcut := @Cuts.token before [] k w tail ts stop (by simp) hspell hstop
    (by rwa [List.append_nil])
  rwa [List.append_nil] at hcut

/-- A keyword, a name or a number before a cut text that stands apart from it. -/
theorem word {k : Kind} {w : String} (hspell : Spells k w)
    (hk : k ∉ Kind.illegal :: Kind.symbols.map Prod.snd) (hapart : Apart w.toList tail)
    (h : Cuts (before ++ w.toList) tail ts stop) :
    Cuts before (w.toList ++ tail) (⟨k, w, .behind before⟩ :: ts) stop :=
  piece hspell (stops_of_apart (hspell.opens hk) hapart) h

/-- A symbol of one character before a cut text. -/
theorem sign {k : Kind} {c : Char} (hmem : (String.singleton c, k) ∈ Kind.symbols)
    (hc : c = '=' ∨ c = '!' → tail.head? ≠ some '=') (h : Cuts (before ++ [c]) tail ts stop) :
    Cuts before (c :: tail) (⟨k, String.singleton c, .behind before⟩ :: ts) stop := by
  have hstop : Stops (String.singleton c) tail := by
    refine stops_symbol hmem fun hw => hc ?_
    simpa [String.ext_iff] using hw
  have hcut := piece (.symbol hmem) hstop (by rwa [String.toList_singleton])
  rwa [String.toList_singleton] at hcut

end Cuts
end MonkeyFrontend
