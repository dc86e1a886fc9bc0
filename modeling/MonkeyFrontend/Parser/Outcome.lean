import MonkeyFrontend.Parser.Diagnostic
import MonkeyFrontend.Token.Supply

/-! # Outcomes

Reading a construct takes a supply that stands on its first token and leaves one that
stands on its last token.  What was read comes with the diagnostics found on the way, and
never with a supply that goes back.
-/
namespace MonkeyFrontend

open TokenSupply

/-- What reading from the supply `start` gives: a value, the diagnostics it found and the
supply on the last token it took. -/
structure Outcome {σ : Type} [TokenSupply σ] (α : Type) (start : σ) where
  value : α
  found : List Diagnostic
  stream : σ
  size_le : size stream ≤ size start

namespace Outcome

variable {σ : Type} [TokenSupply σ] {α β : Type} {s : σ}

/-- Takes no token and reports nothing. -/
def pure (s : σ) (a : α) : Outcome α s := ⟨a, [], s, Nat.le_refl _⟩

/-- Takes no token and reports one thing. -/
def report (s : σ) (a : α) (d : Diagnostic) : Outcome α s := ⟨a, [d], s, Nat.le_refl _⟩

/-- The same outcome with another value. -/
def map (f : α → β) (o : Outcome α s) : Outcome β s := ⟨f o.value, o.found, o.stream, o.size_le⟩

/-- What is read behind the current token, seen from that token. -/
def behind (o : Outcome α (advance s)) : Outcome α s :=
  ⟨o.value, o.found, o.stream, Nat.le_trans o.size_le (size_advance_le s)⟩

/-- What follows an outcome: its own diagnostics come after those of the first. -/
def andThen (o : Outcome α s) (next : Outcome β o.stream) : Outcome β s :=
  ⟨next.value, o.found ++ next.found, next.stream, Nat.le_trans next.size_le o.size_le⟩

end Outcome

/-- Moves to the next token if it is of the wanted kind; otherwise reports it and stays. -/
def expect {σ : Type} [TokenSupply σ] (wanted : Kind) (s : σ) : Outcome Bool s :=
  if (upcoming s).kind = wanted then (Outcome.pure (advance s) true).behind
  else .report s false (.unexpected wanted (upcoming s).kind)

end MonkeyFrontend
