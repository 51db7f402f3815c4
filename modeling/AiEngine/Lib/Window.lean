import Mathlib.Data.List.DropRight

/-!
# Windows over a stream

A stream comes in chunks. What is kept of it are its last elements, which
`List.rtake` takes, or the windows of some width that begin every so many
elements.
-/

namespace AiEngine.Lib

namespace Window

variable {α : Type} {m n : Nat}

theorem length_rtake (l : List α) : (l.rtake n).length = min n l.length := by
  rw [List.rtake, List.length_drop]
  omega

/-- A chunk that fits leaves room for what was seen last before it. -/
theorem rtake_append (l : List α) {x : List α} (hx : x.length ≤ n) :
    (l ++ x).rtake n = l.rtake (n - x.length) ++ x := by
  have hlen : (l ++ x).length - n = l.length - (n - x.length) := by
    rw [List.length_append]
    omega
  rw [List.rtake, List.rtake, hlen, List.drop_append_of_le_length (by omega)]

theorem rtake_rtake (l : List α) (hle : m ≤ n) :
    (l.rtake n).rtake m = l.rtake m := by
  rw [List.rtake, length_rtake, List.rtake, List.rtake, List.drop_drop]
  congr 1
  omega

/-- The last `n` elements after each chunk. -/
def lastAfterEach (n : Nat) (seen : List α) : List (List α) → List (List α)
  | [] => []
  | x :: xs => (seen ++ x).rtake n :: lastAfterEach n (seen ++ x) xs

/-- What two lists begin with, they have in every part of it. -/
theorem take_drop_of_take_eq {l l' : List α} {h k : Nat}
    (heq : l.take h = l'.take h) (hle : k + n ≤ h) :
    (l.drop k).take n = (l'.drop k).take n := by
  have hpart (l : List α) :
      (l.drop k).take n = ((l.take h).drop k).take n := by
    rw [List.drop_take, List.take_take, Nat.min_eq_left (by omega)]
  rw [hpart l, hpart l', heq]

/-! ## The windows of a stream

The window number `k` begins `k * step` elements into the stream. More
elements add windows behind those that there are and change none of these. -/

variable {S W : Nat}

/-- The window that begins after `k` steps. -/
def nth (S W : Nat) (xs : List α) (k : Nat) : List α :=
  (xs.drop (k * S)).take W

/-- How many windows are complete in a stream of a length. -/
def count (S W n : Nat) : Nat := (n + S - W) / S

/-- The complete windows, in order. -/
def all (S W : Nat) (xs : List α) : List (List α) :=
  (List.range (count S W xs.length)).map (nth S W xs)

theorem lt_count (hS : 0 < S) {k n : Nat} :
    k < count S W n ↔ k * S + W ≤ n := by
  rw [count, Nat.lt_iff_add_one_le, Nat.le_div_iff_mul_le hS, Nat.add_mul]
  omega

theorem count_mono {n' : Nat} (hle : n ≤ n') : count S W n ≤ count S W n' :=
  Nat.div_le_div_right (by omega)

/-- `m` more elements complete at most `m` windows. -/
theorem count_add_le (hS : 0 < S) (m : Nat) :
    count S W (n + m) ≤ count S W n + m := by
  rw [count, count, ← Nat.add_mul_div_right _ _ hS]
  have hle : m ≤ m * S := Nat.le_mul_of_pos_right m hS
  exact Nat.div_le_div_right (by omega)

/-- What comes later does not change a complete window. -/
theorem nth_append {xs : List α} (ys : List α) {k : Nat}
    (hk : k * S + W ≤ xs.length) :
    nth S W (xs ++ ys) k = nth S W xs k := by
  rw [nth, nth, List.drop_append_of_le_length (by omega),
    List.take_append_of_le_length]
  rw [List.length_drop]
  omega

theorem map_nth_append (hS : 0 < S) (xs ys : List α) :
    (List.range (count S W xs.length)).map (nth S W (xs ++ ys)) =
      all S W xs := by
  refine List.map_congr_left fun k hk => ?_
  exact nth_append ys ((lt_count hS).mp (List.mem_range.mp hk))

end Window

end AiEngine.Lib
