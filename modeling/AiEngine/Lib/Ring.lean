import Mathlib.Data.Nat.ModEq
import Mathlib.Data.List.Basic

/-!
# A sequence in a ring of cells

The elements of a sequence go round a ring of `n` cells: the one at position
`i` is in cell `i % n`. As long as fewer than `n` of them are in the ring,
the next one goes to a cell that holds none of them.
-/

namespace AiEngine.Lib

namespace Ring

variable {α : Type} {n : Nat}

/-- Positions that are less than a round apart are in different cells. -/
theorem mod_ne {i j : Nat} (hlt : i < j) (hnear : j < i + n) :
    i % n ≠ j % n := by
  intro heq
  have hdvd : n ∣ j - i := (Nat.modEq_iff_dvd' (Nat.le_of_lt hlt)).mp heq
  have hle := Nat.le_of_dvd (by omega) hdvd
  omega

/-- The cells from a position on hold the elements of a list. -/
def Holds (n : Nat) (cell : Nat → α) (pos : Nat) (xs : List α) : Prop :=
  ∀ i (h : i < xs.length), cell ((pos + i) % n) = xs[i]

variable {cell cell' : Nat → α} {pos : Nat} {x : α} {xs : List α}

theorem holds_nil : Holds n cell pos [] := fun _ h => absurd h (Nat.not_lt_zero _)

theorem Holds.head (h : Holds n cell pos (x :: xs)) : cell (pos % n) = x :=
  h 0 (Nat.zero_lt_succ _)

theorem Holds.tail (h : Holds n cell pos (x :: xs)) :
    Holds n cell (pos + 1) xs := by
  intro i hi
  have hcell := h (i + 1) (Nat.succ_lt_succ hi)
  rwa [show pos + (i + 1) = pos + 1 + i by omega] at hcell

theorem Holds.append (h : Holds n cell pos xs)
    (hx : cell ((pos + xs.length) % n) = x) :
    Holds n cell pos (xs ++ [x]) := by
  intro i hi
  rcases Nat.lt_or_ge i xs.length with hlt | hge
  · rw [h i hlt, List.getElem_append_left hlt]
  · rw [List.length_append, List.length_singleton] at hi
    have heq : i = xs.length := by omega
    subst heq
    simpa using hx

/-- The ring holds the same as long as the cells that are in use keep what
they have. -/
theorem Holds.congr (h : Holds n cell pos xs)
    (hsame : ∀ i < xs.length,
      cell' ((pos + i) % n) = cell ((pos + i) % n)) :
    Holds n cell' pos xs :=
  fun i hi => (hsame i hi).trans (h i hi)

end Ring

end AiEngine.Lib
