import MonkeyFrontend.Proofs.Source.Braces
import MonkeyFrontend.Session.Entry

/-! # The braces of an entry

A draft counts the braces of its lines, and it is finished once no more are opened than closed.
Neither the line ends between the lines nor the blanks at the two ends are braces, so an entry
never has more opening than closing braces (`balance_le_of_mem_entries`).
-/
namespace MonkeyFrontend.Session

theorem balance_append (s t : String) : balance (s ++ t) = balance s + balance t := by
  rw [balance, String.toList_append]
  exact excess_append s.toList t.toList

/-- Blanks in front are no braces. -/
theorem excess_dropWhile (cs : List Char) : excess (cs.dropWhile Text.isBlank) = excess cs := by
  have hsplit : cs.takeWhile Text.isBlank ++ cs.dropWhile Text.isBlank = cs :=
    List.takeWhile_append_dropWhile
  have hblank : excess (cs.takeWhile Text.isBlank) = 0 := by
    refine excess_of_sublist (List.Sublist.refl _) fun hc => List.count_eq_zero.mpr fun hmem => ?_
    have hisBlank := List.mem_takeWhile_imp hmem
    rcases hc with ⟨rfl, -⟩ | ⟨rfl, -⟩ <;> exact absurd hisBlank (by decide)
  rw [← congrArg excess hsplit, excess_append, hblank, Int.zero_add]

theorem excess_reverse (cs : List Char) : excess cs.reverse = excess cs := by
  rw [excess, List.count_reverse, List.count_reverse, excess]

/-- Trimming takes no braces away. -/
theorem balance_trimmed (s : String) : balance (trimmed s) = balance s := by
  have htrim : excess (Text.trim s.toList) = excess s.toList := by
    rw [Text.trim, excess_reverse, excess_dropWhile, excess_reverse, excess_dropWhile]
  rw [balance, trimmed, String.toList_ofList]
  exact htrim

/-- A further line adds its own braces. -/
theorem balance_intercalate (lines : List String) (line : String) :
    balance (String.intercalate "\n" (lines ++ [line])) =
      balance (String.intercalate "\n" lines) + balance line := by
  by_cases hnil : lines = []
  · subst hnil
    rw [List.nil_append, String.intercalate_singleton, String.intercalate_nil]
    exact (Int.zero_add _).symm
  · rw [String.intercalate_append_of_ne_nil hnil (List.cons_ne_nil _ _),
      String.intercalate_singleton, balance_append, balance_append]
    exact congrArg (· + balance line) (Int.add_zero _)

/-- The depth of a draft is counted over its lines. -/
def Draft.Counted (d : Draft) : Prop := d.depth = balance (String.intercalate "\n" d.lines)

namespace Draft

variable {d longer : Draft} {line s : String}

theorem counted_empty : empty.Counted := rfl

/-- A line more keeps the count. -/
theorem Counted.add (hd : d.Counted) (h : d.add line = .inl longer) : longer.Counted := by
  unfold Draft.add at h
  split at h
  · contradiction
  · dsimp only at h
    split at h
    · contradiction
    · obtain rfl := Sum.inl.inj h
      rw [Counted, balance_intercalate, hd]

/-- A finished entry opens no more braces than it closes. -/
theorem Counted.balance_le (hd : d.Counted) (h : d.add line = .inr (.text s)) :
    balance s ≤ 0 := by
  unfold Draft.add at h
  split at h
  · nomatch Sum.inr.inj h
  · dsimp only at h
    split at h
    · rename_i hdepth
      obtain rfl := Entry.text.inj (Sum.inr.inj h)
      rw [balance_trimmed, balance_intercalate, ← hd]
      exact hdepth
    · contradiction

end Draft

/-- Reading goes on until no more braces are opened than closed. -/
theorem balance_le_of_read {d : Draft} (hd : d.Counted) {lines : List String} {s : String}
    (h : (read d lines).typed? = some (.text s)) : balance s ≤ 0 := by
  induction lines generalizing d with
  | nil => contradiction
  | cons line rest ih =>
    rw [read] at h
    cases hadd : d.add line with
    | inl longer =>
      rw [hadd] at h
      exact ih (hd.add hadd) h
    | inr entry =>
      rw [hadd] at h
      obtain rfl : entry = .text s := Option.some.inj h
      exact hd.balance_le hadd

/-- The first text that is read is an entry of the session. -/
theorem mem_entries_of_read {lines : List String} {s : String}
    (h : (read .empty lines).typed? = some (.text s)) : some (.text s) ∈ (entries lines).1 := by
  rw [entries_of_text h]
  exact List.mem_cons_self

/-- **No entry of a session opens more braces than it closes.** -/
theorem balance_le_of_mem_entries {lines : List String} {s : String}
    (h : some (.text s) ∈ (entries lines).1) : balance s ≤ 0 := by
  induction lines using entries.induct with
  | case1 lines hread =>
    rw [entries_of_none hread] at h
    nomatch List.mem_singleton.mp h
  | case2 lines hread =>
    rw [entries_of_leave hread] at h
    nomatch List.mem_singleton.mp h
  | case3 lines t hread ih =>
    rw [entries_of_text hread] at h
    rcases List.mem_cons.mp h with heq | hlater
    · obtain rfl : s = t := Entry.text.inj (Option.some.inj heq)
      exact balance_le_of_read Draft.counted_empty hread
    · exact ih hlater

end MonkeyFrontend.Session
