import MonkeyFrontend.Token.Basic

/-! # Supplies of tokens

What a parser needs to know of the place its tokens come from: the token under
examination, the one behind it, and how to move on.  A supply is finite, and its end token
comes again and again.
-/
namespace MonkeyFrontend

/-- A place in a finite sequence of tokens that ends with an end token. -/
class TokenSupply (σ : Type) where
  /-- The token that the supply stands on. -/
  current : σ → Token
  /-- The token after the current one. -/
  upcoming : σ → Token
  /-- Moves on to the next token, unless the supply stands on the end token. -/
  advance : σ → σ
  /-- How many tokens there are before the end token. -/
  size : σ → Nat
  upcoming_eq (s : σ) : upcoming s = current (advance s)
  size_advance (s : σ) : size (advance s) = size s - 1
  size_pos (s : σ) : (current s).kind ≠ .eof → 0 < size s

namespace TokenSupply

variable {σ : Type} [TokenSupply σ]

theorem size_advance_le (s : σ) : size (advance s) ≤ size s := by
  rw [size_advance]
  exact Nat.sub_le _ _

theorem advance_size_le {s t : σ} (h : size s ≤ size t) : size (advance s) ≤ size (advance t) := by
  rw [size_advance, size_advance]
  exact Nat.sub_le_sub_right h 1

/-- A supply that does not stand on the end token has a token to move over. -/
theorem size_advance_lt (s : σ) (h : (current s).kind ≠ .eof) : size (advance s) < size s := by
  rw [size_advance]
  exact Nat.sub_lt (size_pos s h) Nat.one_pos

/-- Nor does a supply stand on the end token if another token comes next. -/
theorem size_advance_lt_of_upcoming (s : σ) (h : (upcoming s).kind ≠ .eof) :
    size (advance s) < size s := by
  rw [upcoming_eq] at h
  have hpos := size_pos (advance s) h
  rw [size_advance] at *
  omega

end TokenSupply

end MonkeyFrontend
