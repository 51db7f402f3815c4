import AiEngine.Ref.PcmIterator

/-!
# The cache that `Init` admits

`Init` computes the cells it needs in `size_t` and keeps the result in an
`int32_t` before it compares it with the limit. Neither the borrow for a
window of one sample nor the reduction to the width of `size_t` can be seen
there: what is compared is the exact number of cells, reduced to 32 bits. It is
the exact number itself below 2 ^ 31 and never from there on, and above 2 ^ 32
it can pass the limit.
-/

namespace AiEngine.Ref

open AiEngine.Lib

theorem toInt32_eq {n : Int} (hlo : -1073741824 ≤ n)
    (hhi : n ≤ 1073741824) :
    toInt32 n = n := by
  rw [toInt32]
  exact Int.bmod_eq_of_le_mul_two (by omega) (by omega)

/-- A number that is not negative stays what it is exactly if it fits. -/
theorem toInt32_eq_iff {n : Int} (hn : 0 ≤ n) :
    toInt32 n = n ↔ n < 2 ^ 31 := by
  rw [toInt32]
  constructor
  · intro heq
    have hlt : n.bmod (2 ^ 32) < ((2 ^ 32 : Nat) + 1) / 2 :=
      Int.bmod_lt (by decide)
    rw [heq] at hlt
    omega
  · intro hlt
    exact Int.bmod_eq_of_le (by omega) (by omega)

/-- The sizes that are taken for something from none to a limit. -/
theorem toInt32_mem_iff {n limit : Int} (hlimit : limit < 2 ^ 31) :
    (0 ≤ toInt32 n ∧ toInt32 n ≤ limit) ↔ n % 2 ^ 32 ≤ limit := by
  rw [toInt32, Int.bmod_eq_emod]
  have hpos := Int.emod_nonneg n (show (2 ^ 32 : Int) ≠ 0 by decide)
  have hlt := Int.emod_lt_of_pos n (show (0 : Int) < 2 ^ 32 by decide)
  split <;> omega

/-- The reduction to the width of `size_t` is not seen in an `int32_t`. -/
theorem toInt32_sizeT (a : Abi) (n : Nat) :
    toInt32 (a.sizeT n) = toInt32 n := by
  have hdvd : ((2 ^ 32 : Nat) : Int) ∣ a.sizeMod := by cases a <;> decide
  rw [toInt32, toInt32, Abi.sizeT, Int.natCast_emod, ← Int.emod_bmod,
    Int.emod_emod_of_dvd _ hdvd, Int.emod_bmod]

namespace PCMIterator

variable {a : Abi} {S W : Nat} {it it' : PCMIterator}
variable {newCells : Option (Nat → Int16)}

/-! ## The number of cells

`Init` computes the number of cells in `size_t` and puts it into an `int32_t`.
Both can change it, and the comparison with the limit is made after the
second. -/

/-- The cells of the cache, in exact arithmetic. -/
def exactCacheSize (S W : Nat) : Int := ((W : Int) - 2).tdiv S * S + W

theorem exactCacheSize_of_two_le (hW : 2 ≤ W) :
    exactCacheSize S W = (((W - 2) / S * S + W : Nat) : Int) := by
  have hcast : ((W - 2 : Nat) : Int) = (W : Int) - 2 := by omega
  rw [exactCacheSize, ← hcast, ← Int.ofNat_tdiv]
  push_cast
  rfl

theorem exactCacheSize_nonneg (hS : 1 ≤ S) (hstep : S ≤ W) :
    0 ≤ exactCacheSize S W := by
  rcases Nat.lt_or_ge W 2 with hone | htwo
  · obtain rfl : W = 1 := by omega
    obtain rfl : S = 1 := by omega
    decide
  · rw [exactCacheSize_of_two_le htwo]
    exact Int.natCast_nonneg _

theorem toInt32_cacheSize (hS : 1 ≤ S) (hstep : S ≤ W) (hW : W < a.sizeMod) :
    toInt32 (a.sizeT (a.sub (a.sub W 1) 1 / S * S + W)) =
      toInt32 (exactCacheSize S W) := by
  have hmod := a.sizeMod_ge
  have hpred : a.sub W 1 = W - 1 := Abi.sub_of_le (by omega) hW
  rw [hpred]
  rcases Nat.lt_or_ge W 2 with hone | htwo
  · -- The borrow gives all ones, and the sum is the modulus.
    obtain rfl : W = 1 := by omega
    obtain rfl : S = 1 := by omega
    cases a <;> decide
  · have hpred' : a.sub (W - 1) 1 = W - 2 :=
      Abi.sub_of_le (by omega) (by omega)
    rw [hpred', toInt32_sizeT, exactCacheSize_of_two_le htwo]

theorem init_eq (hfresh : it.isInitialized = false) (hS : 1 ≤ S)
    (hstep : S ≤ W) (hW : W < a.sizeMod) :
    it.init a S W newCells =
      { it with
        stepSize := S
        windowSize := W
        maxCacheSize := toInt32 (exactCacheSize S W) }.endInit newCells := by
  have hbegun : ¬ it.isInitialized = true := by
    rw [hfresh]
    exact Bool.false_ne_true
  rw [init, if_neg hbegun, if_neg (by omega), if_neg (by omega)]
  simp only [toInt32_cacheSize hS hstep hW]

/-- `Init` refuses the other sizes before it computes anything. -/
theorem init_refused (hsizes : ¬ (1 ≤ S ∧ S ≤ W)) :
    it.init a S W newCells = (Retcode.failure, it) := by
  rw [init]
  by_cases hbegun : it.isInitialized = true
  · rw [if_pos hbegun]
  · rw [if_neg hbegun]
    by_cases hzero : S = 0 ∨ W = 0
    · rw [if_pos hzero]
    · rw [if_neg hzero, if_pos (by omega)]

theorem maxCacheSize_endInit :
    (it.endInit newCells).2.maxCacheSize = it.maxCacheSize := by
  unfold endInit
  split
  · rfl
  · split
    · rfl
    · cases newCells <;> rfl

theorem endInit_success_iff :
    (it.endInit newCells).1 = Retcode.success ↔
      (0 ≤ it.maxCacheSize ∧ it.maxCacheSize ≤ pcmMaxCacheSize) ∧
        newCells.isSome = true := by
  have hfailure : Retcode.failure ≠ Retcode.success := by decide
  have hmemory : Retcode.outOfMemory ≠ Retcode.success := by decide
  unfold endInit
  split
  · next hover =>
      exact iff_of_false hfailure fun h => Int.not_le.mpr hover h.1.2
  · next hunder =>
      split
      · next hneg =>
          exact iff_of_false hmemory fun h => Int.not_le.mpr hneg h.1.1
      · next hpos =>
          cases newCells with
          | none => exact iff_of_false hmemory (by simp)
          | some newCells =>
              exact iff_of_true rfl
                ⟨⟨Int.not_lt.mp hpos, Int.not_lt.mp hunder⟩, rfl⟩

/-- A cache that was allocated has the cells that were counted. -/
theorem cells_endInit
    (hsuccess : (it.endInit newCells).1 = Retcode.success) :
    ((it.endInit newCells).2.cells.length : Int) = it.maxCacheSize := by
  obtain ⟨⟨hpos, hmax⟩, hsome⟩ := endInit_success_iff.mp hsuccess
  obtain ⟨newCells, rfl⟩ := Option.isSome_iff_exists.mp hsome
  rw [endInit, if_neg (Int.not_lt.mpr hmax), if_neg (Int.not_lt.mpr hpos)]
  simp only [List.length_map, List.length_range]
  exact Int.toNat_of_nonneg hpos

/-- `Init` succeeds on sizes in order only, whose cache keeps the limit and is
allocated whole. -/
def AdmitsExact (S W : Nat) (result : Int × PCMIterator) : Prop :=
  result.1 = Retcode.success →
    (1 ≤ S ∧ S ≤ W) ∧ exactCacheSize S W ≤ pcmMaxCacheSize ∧
      (result.2.cells.length : Int) = exactCacheSize S W

/-- What is compared with the limit is the exact number of cells. -/
def ComparesExact (S W : Nat) (result : Int × PCMIterator) : Prop :=
  1 ≤ S → S ≤ W → result.2.maxCacheSize = exactCacheSize S W

/-- An `Init` that succeeds admits what it should unless the exact size is
above the limit and its last 32 bits are not. -/
theorem admitsExact_iff (hfresh : it.isInitialized = false)
    (hW : W < a.sizeMod) :
    AdmitsExact S W (it.init a S W newCells) ↔
      (1 ≤ S → S ≤ W → newCells.isSome = true →
        exactCacheSize S W ≤ pcmMaxCacheSize ∨
          pcmMaxCacheSize < exactCacheSize S W % 2 ^ 32) := by
  by_cases hsizes : 1 ≤ S ∧ S ≤ W
  · obtain ⟨hS, hstep⟩ := hsizes
    have hnonneg := exactCacheSize_nonneg hS hstep
    rw [AdmitsExact, init_eq hfresh hS hstep hW]
    constructor
    · intro hadmits _ _ hsome
      refine or_iff_not_imp_right.mpr fun hle => ?_
      have hkept := (toInt32_mem_iff (by decide)).mpr (Int.not_lt.mp hle)
      exact (hadmits (endInit_success_iff.mpr ⟨hkept, hsome⟩)).2.1
    · intro hcond hsuccess
      obtain ⟨hkept, hsome⟩ := endInit_success_iff.mp hsuccess
      have hle := (toInt32_mem_iff (by decide)).mp hkept
      have hmax := (hcond hS hstep hsome).resolve_right (Int.not_lt.mpr hle)
      have hexact : toInt32 (exactCacheSize S W) = exactCacheSize S W :=
        (toInt32_eq_iff hnonneg).mpr (Int.lt_of_le_of_lt hmax (by decide))
      exact ⟨⟨hS, hstep⟩, hmax, (cells_endInit hsuccess).trans hexact⟩
  · rw [AdmitsExact, init_refused hsizes]
    have hfailure : Retcode.failure ≠ Retcode.success := by decide
    refine iff_of_true (fun h => absurd h hfailure) fun hS hstep => ?_
    exact absurd ⟨hS, hstep⟩ hsizes

theorem comparesExact_iff (hfresh : it.isInitialized = false)
    (hW : W < a.sizeMod) :
    ComparesExact S W (it.init a S W newCells) ↔
      (1 ≤ S → S ≤ W → exactCacheSize S W < 2 ^ 31) := by
  refine forall_congr' fun hS => forall_congr' fun hstep => ?_
  rw [init_eq hfresh hS hstep hW, maxCacheSize_endInit]
  exact toInt32_eq_iff (exactCacheSize_nonneg hS hstep)

end PCMIterator

/-- `Init` admits caches as it says, by a comparison of the exact number of
cells, as long as that number of cells is below 2 ^ 31. -/
theorem init_exact_iff (a : Abi) {it : PCMIterator} {S W : Nat}
    (newCells : Option (Nat → Int16)) (hfresh : it.isInitialized = false)
    (hW : W < a.sizeMod) :
    (PCMIterator.AdmitsExact S W (it.init a S W newCells) ∧
        PCMIterator.ComparesExact S W (it.init a S W newCells)) ↔
      (1 ≤ S → S ≤ W → PCMIterator.exactCacheSize S W < 2 ^ 31) := by
  rw [PCMIterator.admitsExact_iff hfresh hW,
    PCMIterator.comparesExact_iff hfresh hW]
  refine and_iff_right_of_imp fun hlt hS hstep _ => ?_
  have hnonneg := PCMIterator.exactCacheSize_nonneg hS hstep
  have hmod := Int.emod_eq_of_lt hnonneg
    (Int.lt_trans (hlt hS hstep) (show (2 ^ 31 : Int) < 2 ^ 32 by decide))
  rw [hmod]
  exact le_or_gt _ _

/-- The sizes of the keyword spotter. -/
theorem init_exact_kws :
    PCMIterator.AdmitsExact 3200 3360
        (PCMIterator.new.init .ilp32 3200 3360 (some fun _ => 0)) ∧
      PCMIterator.ComparesExact 3200 3360
        (PCMIterator.new.init .ilp32 3200 3360 (some fun _ => 0)) :=
  (init_exact_iff .ilp32 _ rfl (by decide)).mpr (by decide)

/-- A window of 2 ^ 32 + 2 samples is admitted, with a cache of two cells. -/
theorem hugeWindow_not_exact :
    ¬ ∀ (a : Abi) (it : PCMIterator) (S W : Nat)
      (newCells : Option (Nat → Int16)), it.isInitialized = false →
      S < a.sizeMod → W < a.sizeMod →
      PCMIterator.AdmitsExact S W (it.init a S W newCells) ∧
        PCMIterator.ComparesExact S W (it.init a S W newCells) := by
  intro h
  have hadmits := (h .lp64 PCMIterator.new 4294967298 4294967298
    (some fun _ => 0) rfl (by decide) (by decide)).1
  have hcells := (hadmits (by decide)).2.2
  exact absurd hcells (by decide)

end AiEngine.Ref
