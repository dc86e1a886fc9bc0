import MonkeyFrontend.Proofs.Source.Cutting

/-! # The order of places in a text

Reading on moves down or to the right, so the tokens of a text stand at places that increase
strictly (`TokenStream.increasing_ofSource`).
-/
namespace MonkeyFrontend

namespace Position

/-- Whether one place comes before another: on an earlier line, or further left on its own. -/
def Before (p q : Position) : Prop := p.line < q.line ∨ p.line = q.line ∧ p.column < q.column

variable {p q r : Position}

theorem Before.trans (h : p.Before q) (h' : q.Before r) : p.Before r := by
  unfold Before at *
  omega

theorem before_after (p : Position) (c : Char) : p.Before (p.after c) := by
  unfold after Before
  split
  · left
    exact Int.lt_succ _
  · right
    exact ⟨rfl, Int.lt_succ _⟩

theorem before_advance (p : Position) {cs : List Char} (h : cs ≠ []) :
    p.Before (p.advance cs) := by
  induction cs generalizing p with
  | nil => exact absurd rfl h
  | cons c cs ih =>
    rw [advance_cons]
    by_cases hnil : cs = []
    · subst hnil
      exact before_after p c
    · exact (before_after p c).trans (ih _ hnil)

/-- A longer text ends at a later place. -/
theorem behind_before (before : List Char) {cs : List Char} (h : cs ≠ []) :
    (behind before).Before (behind (before ++ cs)) := by
  rw [← advance_behind]
  exact before_advance _ h

/-- What stands behind a text stands there or later. -/
theorem behind_le (before cs : List Char) :
    behind (before ++ cs) = behind before ∨ (behind before).Before (behind (before ++ cs)) := by
  by_cases h : cs = []
  · left
    rw [h, List.append_nil]
  · right
    exact behind_before before h

end Position

/-- The order of the tokens of one text. -/
def Token.Before (t u : Token) : Prop := t.position.Before u.position

/-- The tokens of a cut stand behind its beginning, in order. -/
theorem Cuts.increasing {before rest : List Char} {ts : List Token} {stop : Position}
    (h : Cuts before rest ts stop) :
    (∀ t ∈ ts, t.position = .behind before ∨ (Position.behind before).Before t.position) ∧
      ts.Pairwise Token.Before := by
  induction h with
  | gap => exact ⟨List.forall_mem_nil _, .nil⟩
  | @token before gap k w tail ts stop _ hspell _ _ ih =>
    obtain ⟨hlater, hpairs⟩ := ih
    have hw : w.toList ≠ [] := by simpa using hspell.ne_empty
    have hhead := Position.behind_le before gap
    have hstep := Position.behind_before (before ++ gap) hw
    have htail : ∀ t ∈ ts, (Position.behind (before ++ gap)).Before t.position := by
      intro t ht
      rcases hlater t ht with heq | hbefore
      · rw [heq]
        exact hstep
      · exact hstep.trans hbefore
    refine ⟨List.forall_mem_cons.mpr ⟨hhead, fun t ht => Or.inr ?_⟩,
      List.pairwise_cons.mpr ⟨htail, hpairs⟩⟩
    rcases hhead with heq | hbefore
    · rw [← heq]
      exact htail t ht
    · exact hbefore.trans (htail t ht)

/-- **The tokens of a text stand at strictly increasing places.** -/
theorem TokenStream.increasing_ofSource (source : String) :
    (ofSource source).ahead.Pairwise Token.Before := (cuts_ofSource source).increasing.2

end MonkeyFrontend
