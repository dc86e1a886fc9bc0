import Mathlib.Data.List.Basic

/-! # Reading a text piece by piece

A reader takes a portion off the head of a text and leaves a rest.  A portion keeps the fact that
its rest is shorter than the text, so that readers may call each other and themselves on what is
left.  `Reads` says of an answer what was read and what is left; a text that is closed by a sign of
its own is read by one reader after the other (`upTo`), whatever reads its parts.
-/
namespace MonkeyFrontend.Text

/-- What a reader takes off the head of a text, and the rest: less than there was. -/
structure Portion (α : Type) (cs : List Char) where
  value : α
  rest : List Char
  shorter : rest.length < cs.length

namespace Portion

variable {α β : Type} {cs : List Char}

/-- What one character is read as. -/
def single (a : α) (c : Char) (rest : List Char) : Portion α (c :: rest) :=
  ⟨a, rest, Nat.lt_succ_self _⟩

/-- The same portion with another value. -/
def map (f : α → β) (p : Portion α cs) : Portion β cs := ⟨f p.value, p.rest, p.shorter⟩

/-- A portion of what stands behind one character, seen from that character. -/
def behindChar {c : Char} (p : Portion α cs) : Portion α (c :: cs) :=
  ⟨p.value, p.rest, Nat.lt_succ_of_lt p.shorter⟩

/-- A portion of what another one leaves, seen from before that one. -/
def behind (p : Portion α cs) (q : Portion β p.rest) : Portion β cs :=
  ⟨q.value, q.rest, Nat.lt_trans q.shorter p.shorter⟩

/-- A portion that begins with a character which another reader took. -/
def startingWith (p : Portion Char cs) (q : Portion β (p.value :: p.rest)) : Portion β cs :=
  ⟨q.value, q.rest, Nat.lt_of_lt_of_le q.shorter p.shorter⟩

end Portion

variable {α β : Type} {cs : List Char}

/-- The answer of a reader takes `a` and leaves `rest`. -/
def Reads (o : Option (Portion α cs)) (a : α) (rest : List Char) : Prop :=
  ∃ h, o = some ⟨a, rest, h⟩

namespace Reads

variable {o : Option (Portion α cs)} {a b : α} {rest other : List Char}

theorem unique (h : Reads o a rest) (h' : Reads o b other) : a = b ∧ rest = other := by
  obtain ⟨_, rfl⟩ := h
  obtain ⟨_, h'⟩ := h'
  rw [Option.some.injEq, Portion.mk.injEq] at h'
  exact h'

theorem map (f : α → β) (h : Reads o a rest) : Reads (o.map (Portion.map f)) (f a) rest := by
  obtain ⟨_, rfl⟩ := h
  exact ⟨_, rfl⟩

theorem behindChar {c : Char} (h : Reads o a rest) :
    Reads (o.map (Portion.behindChar (c := c))) a rest := by
  obtain ⟨_, rfl⟩ := h
  exact ⟨_, rfl⟩

end Reads

/-- What stands before the sign `close`, read part by part. -/
def upTo (close : Char) (part : (cs : List Char) → Option (Portion α cs)) (cs : List Char) :
    Option (Portion (List α) cs) :=
  match cs with
  | [] => none
  | c :: rest =>
    if c = close then some (.single [] c rest)
    else
      match part (c :: rest) with
      | none => none
      | some first => (upTo close part first.rest).map fun later =>
        first.behind (later.map (first.value :: ·))
termination_by cs.length
decreasing_by exact first.shorter

/-- Parts that are read one by one are read together when none begins with the closing sign. -/
theorem reads_upTo {close : Char} {part : (cs : List Char) → Option (Portion α cs)}
    {write : α → List Char} (hread : ∀ a more, Reads (part (write a ++ more)) a more)
    (hhead : ∀ a, ∃ c tail, write a = c :: tail ∧ c ≠ close) (as : List α) (more : List Char) :
    Reads (upTo close part (as.flatMap write ++ close :: more)) as more := by
  induction as with
  | nil =>
    rw [List.flatMap_nil, List.nil_append, upTo, if_pos rfl]
    exact ⟨_, rfl⟩
  | cons a as ih =>
    obtain ⟨c, tail, hwrite, hc⟩ := hhead a
    have hfirst := hread a (as.flatMap write ++ close :: more)
    rw [hwrite, List.cons_append] at hfirst
    obtain ⟨_, hfirst⟩ := hfirst
    obtain ⟨_, ih⟩ := ih
    rw [List.flatMap_cons, hwrite, List.append_assoc, List.cons_append, upTo, if_neg hc, hfirst]
    dsimp only
    rw [ih]
    exact ⟨_, rfl⟩

end MonkeyFrontend.Text
