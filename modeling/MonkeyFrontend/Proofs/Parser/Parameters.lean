import MonkeyFrontend.Parser.Reader
import MonkeyFrontend.Proofs.Parser.Call
import MonkeyFrontend.Proofs.Parser.Forward
import MonkeyFrontend.Proofs.Parser.Grammar

/-! # Lists of parameters

Reading the parameters of a function takes exactly the lists of the grammar, from whatever place it
starts (`Reader.parameters_exact`).  What is no list is refused at the first token that cannot
continue one, with one report that tells what could have stood there.

Only what is behind the current token counts, so the statements speak of `following n s`, the next
`n` tokens.  A list shows its end: at most one number of tokens forms one.  Where there is none,
reading is `Stuck` behind the greatest number of tokens that can be continued to a list.  The
induction is on the tokens that are left, two for each further name.
-/
namespace MonkeyFrontend

open TokenSupply

namespace TokenSupply

variable {σ : Type} [TokenSupply σ]

/-- The next `n` tokens behind the current one. -/
def following : Nat → σ → List Token
  | 0, _ => []
  | n + 1, s => upcoming s :: following n (advance s)

theorem following_mono {m n : Nat} (h : m ≤ n) (s : σ) : following m s <+: following n s := by
  induction m generalizing n s with
  | zero => exact List.nil_prefix
  | succ m ih =>
    cases n with
    | zero => exact absurd h (Nat.not_succ_le_zero m)
    | succ n => exact List.cons_prefix_cons.mpr ⟨rfl, ih (Nat.le_of_succ_le_succ h) _⟩

end TokenSupply

namespace Grammar

variable {x : Phrase} {ts us : List Token} {t i : Token} {names : List Identifier}

/-- Tokens that can be continued to a phrase. -/
def Viable (x : Phrase) (ts : List Token) : Prop := ∃ us v, Derives x (ts ++ us) v []

/-- The first of some tokens can be continued if all of them can. -/
theorem Viable.mono (h : Viable x us) (hts : ts <+: us) : Viable x ts := by
  obtain ⟨ws, v, hv⟩ := h
  obtain ⟨vs, rfl⟩ := hts
  exact ⟨vs ++ ws, v, List.append_assoc ts vs ws ▸ hv⟩

/-! ## What a list of parameters is made of -/

theorem moreParameters_cons (h : Derives .moreParameters (t :: ts) names []) :
    t.kind = .rparen ∧ ts = [] ∧ names = [] ∨
      t.kind = .comma ∧ ∃ i us more, ts = i :: us ∧ i.kind = .ident ∧
        names = .ofToken i :: more ∧ Derives .moreParameters us more [] := by
  cases h with
  | last_parameter ht => exact Or.inl ⟨ht, rfl, rfl⟩
  | more_parameters ht hi h => exact Or.inr ⟨ht, _, _, _, rfl, hi, rfl, h⟩

theorem parameters_cons (h : Derives .parameters (t :: ts) names []) :
    t.kind = .rparen ∧ ts = [] ∧ names = [] ∨
      t.kind = .ident ∧ ∃ more, names = .ofToken t :: more ∧
        Derives .moreParameters ts more [] := by
  cases h with
  | no_parameters ht => exact Or.inl ⟨ht, rfl, rfl⟩
  | parameters ht h => exact Or.inr ⟨ht, _, rfl, h⟩

/-- A token of a kind. -/
def sample (k : Kind) : Token := ⟨k, k.text, Position.unknown⟩

theorem viable_moreParameters_nil : Viable .moreParameters [] :=
  ⟨[sample .rparen], [], .last_parameter rfl⟩

theorem viable_parameters_nil : Viable .parameters [] :=
  ⟨[sample .rparen], [], .no_parameters rfl⟩

theorem viable_moreParameters_comma (ht : t.kind = .comma) : Viable .moreParameters [t] :=
  ⟨[sample .ident, sample .rparen], _, .more_parameters ht rfl (.last_parameter rfl)⟩

/-- A further name keeps what can be continued as it is. -/
theorem viable_moreParameters_cons (ht : t.kind = .comma) (hi : i.kind = .ident) :
    Viable .moreParameters (t :: i :: ts) ↔ Viable .moreParameters ts := by
  constructor
  · rintro ⟨us, names, h⟩
    rcases moreParameters_cons h with ⟨hclose, -⟩ | ⟨-, _, _, more, htail, -, -, h⟩
    · simp [hclose] at ht
    · obtain ⟨-, rfl⟩ := List.cons.inj htail
      exact ⟨us, more, h⟩
  · rintro ⟨us, names, h⟩
    exact ⟨us, _, .more_parameters ht hi h⟩

theorem viable_parameters_cons (ht : t.kind = .ident) :
    Viable .parameters (t :: ts) ↔ Viable .moreParameters ts := by
  constructor
  · rintro ⟨us, names, h⟩
    rcases parameters_cons h with ⟨hclose, -⟩ | ⟨-, more, -, h⟩
    · simp [hclose] at ht
    · exact ⟨us, more, h⟩
  · rintro ⟨us, names, h⟩
    exact ⟨us, _, .parameters ht h⟩

/-- Behind a name there is a comma or the end of the list. -/
theorem Viable.behind_name (h : Viable .moreParameters (t :: ts)) :
    t.kind = .rparen ∨ t.kind = .comma := by
  obtain ⟨us, names, h⟩ := h
  exact (moreParameters_cons h).imp And.left And.left

/-- Behind a comma there is a name. -/
theorem Viable.behind_comma (h : Viable .moreParameters (t :: i :: ts)) (ht : t.kind = .comma) :
    i.kind = .ident := by
  obtain ⟨us, names, h⟩ := h
  rcases moreParameters_cons h with ⟨hclose, -⟩ | ⟨-, _, _, _, htail, hi, -⟩
  · simp [hclose] at ht
  · rwa [(List.cons.inj htail).1]

/-- A list that is not empty begins with a name. -/
theorem Viable.first (h : Viable .parameters (t :: ts)) : t.kind = .rparen ∨ t.kind = .ident := by
  obtain ⟨us, names, h⟩ := h
  exact (parameters_cons h).imp And.left And.left

end Grammar

namespace Parser

open Grammar

variable {σ : Type} [TokenSupply σ] {s : σ} {n : Nat} {names : List Identifier}

/-! ## What is a list is taken -/

/-- The further names of a list are read to its end. -/
theorem run_moreParameters (h : Derives .moreParameters (following n s) names []) :
    Run .moreParameters s (some names) [] (advance^[n] s) ∧
      (current (advance^[n] s)).kind = .rparen := by
  induction names generalizing n s with
  | nil =>
    cases n with
    | zero => cases h
    | succ n =>
      rcases moreParameters_cons h with ⟨hclose, hnil, -⟩ | ⟨-, _, _, _, -, -, hnames, -⟩
      · cases n with
        | zero =>
          have hlast := upcoming_eq s ▸ hclose
          exact ⟨.moreParameters_end hclose, hlast⟩
        | succ n => cases hnil
      · cases hnames
  | cons i more ih =>
    cases n with
    | zero => cases h
    | succ n =>
      rcases moreParameters_cons h with ⟨-, -, hnames⟩ | ⟨hcomma, _, _, _, htail, hi, hnames, h⟩
      · cases hnames
      · cases n with
        | zero => cases htail
        | succ n =>
          obtain ⟨rfl, rfl⟩ := List.cons.inj htail
          obtain ⟨rfl, rfl⟩ := List.cons.inj hnames
          obtain ⟨hrun, hlast⟩ := ih h
          exact ⟨.moreParameters hcomma hi hrun, hlast⟩

/-- A list is read to its end. -/
theorem run_parameters (h : Derives .parameters (following n s) names []) :
    Run .parameters s (some names) [] (advance^[n] s) ∧
      (current (advance^[n] s)).kind = .rparen := by
  cases n with
  | zero => cases h
  | succ n =>
    rcases parameters_cons h with ⟨hclose, hnil, rfl⟩ | ⟨hname, more, rfl, hmore⟩
    · cases n with
      | zero =>
        have hlast := upcoming_eq s ▸ hclose
        exact ⟨.parameters_none hclose, hlast⟩
      | succ n => cases hnil
    · obtain ⟨hrun, hlast⟩ := run_moreParameters hmore
      exact ⟨.parameters hname hrun, hlast⟩

/-! ## What is no list is refused -/

/-- **Where a phrase cannot go on.**  The next `n` tokens can be continued to it, and no longer
number of them can. -/
structure Stuck (x : Phrase) (s : σ) (n : Nat) : Prop where
  viable : Viable x (following n s)
  longest : ∀ m, Viable x (following m s) → m ≤ n

theorem stuck_of_next {x : Phrase} (h : Viable x (following n s))
    (hnext : ¬ Viable x (following (n + 1) s)) : Stuck x s n := by
  refine ⟨h, fun m hm => ?_⟩
  by_contra hlt
  exact hnext (hm.mono (following_mono (Nat.not_le.mp hlt) s))

theorem Stuck.next {x : Phrase} (h : Stuck x s n) : ¬ Viable x (following (n + 1) s) :=
  fun hnext => Nat.not_succ_le_self n (h.longest _ hnext)

/-- What is wanted behind a token of a list: a name behind a comma, and the closing parenthesis
behind a name. -/
def Wants (t : Token) (k : Kind) : Prop :=
  t.kind = .comma ∧ k = .ident ∨ t.kind = .ident ∧ k = .rparen

/-- Behind a name, the list goes on to its end or is refused where it cannot go on. -/
theorem moreParameters_cases (s : σ) (hs : (current s).kind = .ident) :
    (∃ n names, Derives .moreParameters (following n s) names []) ∨
      ∃ n wanted, Stuck .moreParameters s n ∧ Wants (current (advance^[n] s)) wanted ∧
        Run .moreParameters s none [.unexpected wanted (upcoming (advance^[n] s)).kind]
          (advance^[n] s) := by
  induction hsize : size s using Nat.strongRecOn generalizing s with
  | _ k ih =>
    subst hsize
    by_cases hclose : (upcoming s).kind = .rparen
    · exact Or.inl ⟨1, [], .last_parameter hclose⟩
    by_cases hcomma : (upcoming s).kind = .comma
    · by_cases hname : (upcoming (advance s)).kind = .ident
      · have hlt : size (advance (advance s)) < size s :=
          Nat.lt_of_le_of_lt (size_advance_le _) (size_advance_lt_of_upcoming s (by simp [hcomma]))
        rcases ih _ hlt _ (upcoming_eq (advance s) ▸ hname) rfl with
          ⟨n, names, h⟩ | ⟨n, wanted, hstuck, hwants, hrun⟩
        · exact Or.inl ⟨n + 2, _, .more_parameters hcomma hname h⟩
        · refine Or.inr ⟨n + 2, wanted, stuck_of_next ?_ ?_, hwants,
            .moreParameters hcomma hname hrun⟩
          · exact (viable_moreParameters_cons hcomma hname).mpr hstuck.viable
          · exact fun h => hstuck.next ((viable_moreParameters_cons hcomma hname).mp h)
      · have hwants : Wants (current (advance s)) .ident := Or.inl ⟨upcoming_eq s ▸ hcomma, rfl⟩
        exact Or.inr ⟨1, .ident, stuck_of_next (viable_moreParameters_comma hcomma)
          fun h => hname (h.behind_comma hcomma), hwants, .moreParameters_bare hcomma hname⟩
    · exact Or.inr ⟨0, .rparen, stuck_of_next viable_moreParameters_nil
        fun h => h.behind_name.elim hclose hcomma, Or.inr ⟨hs, rfl⟩,
        .moreParameters_open hcomma hclose⟩

/-- From any place, the list goes on to its end or is refused where it cannot go on. -/
theorem parameters_cases (s : σ) :
    (∃ n names, Derives .parameters (following n s) names []) ∨
      ∃ n wanted, Stuck .parameters s n ∧
        (n = 0 ∧ wanted = .ident ∨ n ≠ 0 ∧ Wants (current (advance^[n] s)) wanted) ∧
        Run .parameters s none [.unexpected wanted (upcoming (advance^[n] s)).kind]
          (advance^[n] s) := by
  by_cases hclose : (upcoming s).kind = .rparen
  · exact Or.inl ⟨1, [], .no_parameters hclose⟩
  by_cases hname : (upcoming s).kind = .ident
  · rcases moreParameters_cases (advance s) (upcoming_eq s ▸ hname) with
      ⟨n, names, h⟩ | ⟨n, wanted, hstuck, hwants, hrun⟩
    · exact Or.inl ⟨n + 1, _, .parameters hname h⟩
    · refine Or.inr ⟨n + 1, wanted, stuck_of_next ?_ ?_, Or.inr ⟨Nat.succ_ne_zero n, hwants⟩,
        .parameters hname hrun⟩
      · exact (viable_parameters_cons hname).mpr hstuck.viable
      · exact fun h => hstuck.next ((viable_parameters_cons hname).mp h)
  · exact Or.inr ⟨0, .ident, stuck_of_next viable_parameters_nil
      fun h => h.first.elim hclose hname, Or.inl ⟨rfl, rfl⟩, .parameters_bare hclose hname⟩

end Parser

namespace Reader

open Grammar MonkeyFrontend.Parser

variable {σ : Type} [TokenSupply σ]

/-- A reader answers with the parameters of a run and goes on behind them. -/
theorem perform_parameters {r : Reader σ} {v : Option (List Identifier)} {ds : List Diagnostic}
    {t : σ} (h : Run .parameters r.stream v ds t) :
    r.perform .parameters = (.names v, ⟨t, r.diagnostics ++ ds⟩) :=
  accept_of_gives h.gives .names

/-- **Parameters are read exactly where there is a list of them.**  A reader that is asked for
parameters answers with some names, adds no diagnostic and stands on a closing parenthesis if and
only if the next tokens form the list of these names; it then stands on the last of them.  Where
they form none, it answers with nothing, stands on the last of the greatest number of them that can
be continued to a list, and adds one diagnostic, which names the kind of the next token and what is
wanted there: a name at first and behind a comma, the closing parenthesis behind a name. -/
theorem parameters_exact (r : Reader σ) :
    (∀ names, (∃ n, Derives .parameters (following n r.stream) names []) ↔
      (r.perform .parameters).1 = .names (some names) ∧
        (r.perform .parameters).2.diagnostics = r.diagnostics ∧
        (current (r.perform .parameters).2.stream).kind = .rparen) ∧
    (∀ n names, Derives .parameters (following n r.stream) names [] →
      (r.perform .parameters).2.stream = advance^[n] r.stream) ∧
    ((∃ n names, Derives .parameters (following n r.stream) names []) ∨
      ∃ n wanted, Stuck .parameters r.stream n ∧
        (n = 0 ∧ wanted = .ident ∨ n ≠ 0 ∧ Wants (current (advance^[n] r.stream)) wanted) ∧
        r.perform .parameters = (.names none, ⟨advance^[n] r.stream,
          r.diagnostics ++ [.unexpected wanted (upcoming (advance^[n] r.stream)).kind]⟩)) := by
  have htaken : ∀ {n names}, Derives .parameters (following n r.stream) names [] →
      r.perform .parameters = (.names (some names), ⟨advance^[n] r.stream, r.diagnostics⟩) ∧
        (current (advance^[n] r.stream)).kind = .rparen := by
    intro n names h
    obtain ⟨hrun, hlast⟩ := run_parameters h
    have hanswer := perform_parameters hrun
    rw [List.append_nil] at hanswer
    exact ⟨hanswer, hlast⟩
  refine ⟨fun names => ⟨?_, ?_⟩, fun n names h => by rw [(htaken h).1], ?_⟩
  · rintro ⟨n, h⟩
    obtain ⟨hanswer, hlast⟩ := htaken h
    rw [hanswer]
    exact ⟨rfl, rfl, hlast⟩
  · rintro ⟨hnames, -⟩
    rcases parameters_cases r.stream with ⟨n, others, h⟩ | ⟨n, wanted, -, -, hrun⟩
    · rw [(htaken h).1] at hnames
      obtain rfl : others = names := by simpa using hnames
      exact ⟨n, h⟩
    · simp [perform_parameters hrun] at hnames
  · rcases parameters_cases r.stream with hlist | ⟨n, wanted, hstuck, hwants, hrun⟩
    · exact Or.inl hlist
    · exact Or.inr ⟨n, wanted, hstuck, hwants, perform_parameters hrun⟩

end Reader
end MonkeyFrontend
