import Mathlib.Data.Finset.Card
import Mathlib.Data.Int.Interval
import Mathlib.Data.Int.ModEq

/-!
# Fresh numbers from a counter that wraps

A counter runs through an interval and starts over at its end. To get a
number that is not in use, count on until one comes up. The loop ends because
as many steps as the interval has numbers meet each of them once: if fewer
are in use than steps are taken, one of them is free.
-/

namespace AiEngine.Lib

namespace FreshId

/-- Count on from `n` within `lo .. hi`. -/
def next (lo hi n : Int) : Int :=
  if n + 1 < lo ∨ hi < n + 1 then lo else n + 1

/-- Count on until a number is free, for at most so many steps. -/
def search (lo hi : Int) (used : Finset Int) : Nat → Int → Int
  | 0, n => n
  | fuel + 1, n =>
      let n := next lo hi n
      if n ∈ used then search lo hi used fuel n else n

variable {lo hi n : Int} {used : Finset Int}

theorem next_bounds (hle : lo ≤ hi) : lo ≤ next lo hi n ∧ next lo hi n ≤ hi := by
  unfold next
  split
  · exact ⟨Int.le_refl lo, hle⟩
  · omega

/-- A step brings the search into the interval, wherever it starts. -/
theorem search_bounds (used : Finset Int) (n : Int) (fuel : Nat)
    (hle : lo ≤ hi) :
    lo ≤ search lo hi used (fuel + 1) n ∧
      search lo hi used (fuel + 1) n ≤ hi := by
  induction fuel generalizing n with
  | zero =>
      simp only [search]
      split <;> exact next_bounds hle
  | succ fuel ih =>
      rw [search]
      split
      · exact ih _
      · exact next_bounds hle

/-- Counting on is adding one, in the residues of the interval's length. -/
theorem next_eq (hlo : lo - 1 ≤ n) (hhi : n ≤ hi) :
    next lo hi n = (n + 1 - lo) % (hi - lo + 1) + lo := by
  unfold next
  split
  · have hn : n = hi := by omega
    rw [hn, show hi + 1 - lo = hi - lo + 1 by omega, Int.emod_self]
    omega
  · rw [Int.emod_eq_of_lt (by omega) (by omega)]
    omega

theorem iterate_next (hlo : lo - 1 ≤ n) (hhi : n ≤ hi) (hle : lo ≤ hi)
    (k : Nat) : (next lo hi)^[k + 1] n =
      (n + (k + 1 : Nat) - lo) % (hi - lo + 1) + lo := by
  induction k with
  | zero => exact next_eq hlo hhi
  | succ k ih =>
      have hpos : 0 < hi - lo + 1 := by omega
      have hge := Int.emod_nonneg (n + (k + 1 : Nat) - lo) (by omega :
        hi - lo + 1 ≠ 0)
      have hlt := Int.emod_lt_of_pos (n + (k + 1 : Nat) - lo) hpos
      rw [Function.iterate_succ_apply', ih, next_eq (by omega) (by omega)]
      rw [show ∀ a : Int, a + lo + 1 - lo = a + 1 by intro a; omega,
        Int.emod_add_emod]
      congr 2
      push_cast
      omega

/-- The numbers that come up in one round are all different. -/
theorem iterate_next_inj (hlo : lo - 1 ≤ n) (hhi : n ≤ hi) (hle : lo ≤ hi)
    {i j : Nat} (hi' : (i : Int) < hi - lo + 1) (hj : (j : Int) < hi - lo + 1)
    (h : (next lo hi)^[i + 1] n = (next lo hi)^[j + 1] n) : i = j := by
  rw [iterate_next hlo hhi hle, iterate_next hlo hhi hle] at h
  have hmod : (n + (i + 1 : Nat) - lo) ≡ (n + (j + 1 : Nat) - lo)
      [ZMOD hi - lo + 1] := by
    unfold Int.ModEq
    omega
  have hdvd := hmod.dvd
  have hzero := Int.eq_zero_of_abs_lt_dvd hdvd (by
    rw [abs_lt]
    push_cast
    omega)
  push_cast at hzero
  omega

/-- A search that ends on a used number met used ones only. -/
theorem iterate_mem_of_search {fuel : Nat}
    (h : search lo hi used (fuel + 1) n ∈ used) :
    ∀ k ≤ fuel, (next lo hi)^[k + 1] n ∈ used := by
  induction fuel generalizing n with
  | zero =>
      intro k hk
      obtain rfl : k = 0 := by omega
      simp only [search] at h
      split at h
      · assumption
      · exact h
  | succ fuel ih =>
      intro k hk
      rw [search] at h
      split at h
      · next hused =>
          cases k with
          | zero => exact hused
          | succ k =>
              rw [Function.iterate_succ_apply]
              exact ih h k (by omega)
      · next hfree => exact absurd h hfree

/-- With a step for every number in use, and one more, the search ends on a
free number. -/
theorem search_fresh (hlo : lo - 1 ≤ n) (hhi : n ≤ hi)
    (hroom : (used.card : Int) < hi - lo + 1) :
    search lo hi used (used.card + 1) n ∉ used := by
  intro hmem
  have hall := iterate_mem_of_search hmem
  have hle : lo ≤ hi := by omega
  have hcard : (Finset.range (used.card + 1)).card ≤ used.card := by
    refine Finset.card_le_card_of_injOn (fun k => (next lo hi)^[k + 1] n) ?_ ?_
    · intro k hk
      exact hall k (by simpa [Nat.lt_succ_iff] using hk)
    · intro i hi' j hj' heq
      simp only [Finset.coe_range, Set.mem_Iio] at hi' hj'
      exact iterate_next_inj hlo hhi hle (by omega) (by omega) heq
  rw [Finset.card_range] at hcard
  omega

/-- From outside the interval the search goes on at its start. -/
theorem search_outside (hout : n < lo - 1 ∨ hi < n) (fuel : Nat) :
    search lo hi used (fuel + 1) n = search lo hi used (fuel + 1) (lo - 1) := by
  have hnext : next lo hi n = next lo hi (lo - 1) := by
    unfold next
    split <;> split <;> omega
  rw [search, search, hnext]

/-- The search ends on a free number wherever it starts. -/
theorem search_notMem (n : Int) (hle : lo ≤ hi)
    (hroom : (used.card : Int) < hi - lo + 1) :
    search lo hi used (used.card + 1) n ∉ used := by
  by_cases hin : lo - 1 ≤ n ∧ n ≤ hi
  · exact search_fresh hin.1 hin.2 hroom
  · rw [search_outside (by omega)]
    exact search_fresh (Int.le_refl _) (by omega) hroom

/-- Where a loop stops that steps until it meets something that is not in
use: after `k` things that are. -/
def Stops {α : Type} (step : α → α) (inUse : α → Prop) (n : α) (k : Nat) :
    Prop :=
  (∀ j < k, inUse (step^[j + 1] n)) ∧ ¬ inUse (step^[k + 1] n)

/-- A search that ends on a free number is what it would be without a limit
on its steps. -/
theorem stops_of_search {fuel : Nat}
    (h : search lo hi used (fuel + 1) n ∉ used) :
    ∃ k ≤ fuel, Stops (next lo hi) (· ∈ used) n k ∧
      search lo hi used (fuel + 1) n = (next lo hi)^[k + 1] n := by
  induction fuel generalizing n with
  | zero =>
      have hone : search lo hi used 1 n = next lo hi n := by
        simp only [search, ite_self]
      rw [hone] at h ⊢
      exact ⟨0, Nat.le_refl 0, ⟨fun _ hj => absurd hj (Nat.not_lt_zero _), h⟩,
        rfl⟩
  | succ fuel ih =>
      rw [search] at h ⊢
      split at h
      · next hused =>
          rw [if_pos hused]
          obtain ⟨k, hk, ⟨hbefore, hfree⟩, heq⟩ := ih h
          refine ⟨k + 1, Nat.succ_le_succ hk, ⟨fun j hj => ?_, hfree⟩, heq⟩
          cases j with
          | zero => exact hused
          | succ j => exact hbefore j (Nat.lt_of_succ_lt_succ hj)
      · next hfree =>
          rw [if_neg hfree]
          exact ⟨0, Nat.zero_le _,
            ⟨fun _ hj => absurd hj (Nat.not_lt_zero _), hfree⟩, rfl⟩

/-- With a free number ahead, the search ends on the first of them and does
not start over. -/
theorem search_ahead {m : Int} (hlo : lo ≤ n + 1) (hnm : n < m) (hm : m ≤ hi)
    (hfree : m ∉ used) (hfirst : ∀ k, n < k → k < m → k ∈ used) {fuel : Nat}
    (hfuel : m - n ≤ fuel) : search lo hi used fuel n = m := by
  induction fuel generalizing n with
  | zero => omega
  | succ fuel ih =>
      have hnext : next lo hi n = n + 1 := by
        unfold next
        rw [if_neg (by omega)]
      rw [search, hnext]
      by_cases hend : n + 1 = m
      · rw [hend, if_neg hfree]
      · rw [if_pos (hfirst (n + 1) (by omega) (by omega))]
        exact ih (by omega) (by omega)
          (fun k hk hkm => hfirst k (by omega) hkm) (by omega)

/-- The first free number ahead is no further than the numbers in use
reach. -/
theorem exists_first_free {m : Int} (hnm : n < m) (hfree : m ∉ used) :
    ∃ k, n < k ∧ k ≤ m ∧ k ∉ used ∧ (∀ l, n < l → l < k → l ∈ used) ∧
      k - n ≤ (used.card + 1 : Nat) := by
  have hex : ∃ d : Nat, n + 1 + d ∉ used :=
    ⟨(m - n - 1).toNat, by rwa [show n + 1 + ((m - n - 1).toNat : Int) = m by omega]⟩
  have hfirst (l : Int) (hl : n < l) (hlt : l < n + 1 + Nat.find hex) :
      l ∈ used := by
    have hmin := Nat.find_min hex (m := (l - n - 1).toNat) (by omega)
    rw [show n + 1 + ((l - n - 1).toNat : Int) = l by omega] at hmin
    exact Decidable.of_not_not hmin
  refine ⟨n + 1 + Nat.find hex, by omega, ?_, Nat.find_spec hex, hfirst, ?_⟩
  · refine Int.not_lt.mp fun hlt => hfree (hfirst m hnm hlt)
  · have hsub : (Finset.Ioo n (n + 1 + Nat.find hex)) ⊆ used := by
      intro l hl
      obtain ⟨hl, hlt⟩ := Finset.mem_Ioo.mp hl
      exact hfirst l hl hlt
    have hcard := Finset.card_le_card hsub
    rw [Int.card_Ioo] at hcard
    push_cast
    omega

theorem search_spec_ahead {m : Int} (hlo : lo ≤ n + 1) (hnm : n < m)
    (hm : m ≤ hi) (hfree : m ∉ used) :
    n < search lo hi used (used.card + 1) n ∧
      search lo hi used (used.card + 1) n ≤ hi ∧
      search lo hi used (used.card + 1) n ∉ used := by
  obtain ⟨k, hnk, hkm, hk, hfirst, hfuel⟩ := exists_first_free hnm hfree
  rw [search_ahead hlo hnk (by omega) hk hfirst hfuel]
  exact ⟨hnk, by omega, hk⟩

end FreshId

end AiEngine.Lib
