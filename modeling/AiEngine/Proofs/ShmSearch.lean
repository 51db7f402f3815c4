import AiEngine.Ref.Shm
import Mathlib.Data.Finset.Card
import Mathlib.Order.Interval.Finset.Nat

/-!
# The key search finds a free key

`AcquireShmSegment` walks the key range in a circle from wherever the last
search stopped. The walk is an induction on how far a free key lies ahead of
`g_shmKey`, counted around the circle; the number of attempts is the length
of the range, so the walk passes every key once. As long as there are fewer
segments than keys some key is free.
-/

namespace AiEngine.Ref

open AiEngine.Lib

/-- A list shorter than a stretch of numbers misses one of them. -/
theorem exists_unlisted (xs : List Int) (lo : Int) {n : Nat}
    (h : xs.length < n) : ∃ i : Nat, i < n ∧ lo + i ∉ xs := by
  by_contra hall
  push Not at hall
  have hsub : (Finset.range n).image (fun i : Nat => lo + (i : Int)) ⊆
      xs.toFinset := by
    intro x hx
    obtain ⟨i, hi, rfl⟩ := Finset.mem_image.mp hx
    exact List.mem_toFinset.mpr (hall i (Finset.mem_range.mp hi))
  have hcard : ((Finset.range n).image fun i : Nat => lo + (i : Int)).card = n := by
    rw [Finset.card_image_of_injective _ (fun i j hij => by simpa using hij),
      Finset.card_range]
  have hle := Finset.card_le_card hsub
  have hlen := List.toFinset_card_le xs
  omega

namespace Host

variable {h : Host} {served : Nat → Bool}

/-! ## Segments by identifier

A host as a map from identifiers to segments. A new segment has an identifier
that none of the others has. -/

@[simp] theorem seg_withCalls (cs : List SysCall) (i : Int) :
    ({ h with calls := cs } : Host).seg i = h.seg i := rfl

theorem seg_update {f : Segment → Segment} (hf : ∀ s, (f s).id = s.id)
    (id i : Int) :
    (h.update id f).seg i =
      if i = id then (h.seg i).map f else h.seg i := by
  simp only [seg, update]
  induction h.segments with
  | nil => split <;> rfl
  | cons s ss ih =>
      simp only [List.map_cons, List.find?_cons]
      by_cases hid : s.id = id
      · rw [if_pos hid, hf]
        by_cases hi : s.id = i
        · simp [hi, hid.symm.trans hi]
        · simpa [hi] using ih
      · rw [if_neg hid]
        by_cases hi : s.id = i
        · have hne : i ≠ id := fun heq => hid (hi.trans heq)
          simp [hi, hne]
        · simpa [hi] using ih

theorem seg_remove (id i : Int) :
    (h.remove id).seg i = if i = id then none else h.seg i := by
  simp only [seg, remove]
  induction h.segments with
  | nil => split <;> rfl
  | cons s ss ih =>
      simp only [List.filter_cons, List.find?_cons, decide_not]
      by_cases hid : s.id = id
      · subst hid
        by_cases hi : s.id = i
        · subst hi
          simp
        · have hne : i ≠ s.id := fun heq => hi heq.symm
          simpa [hi, hne] using ih
      · by_cases hi : s.id = i
        · have hne : i ≠ id := fun heq => hid (hi.trans heq)
          simp [hi, hne]
        · simpa [hid, hi] using ih

theorem length_update (id : Int) (f : Segment → Segment) :
    (h.update id f).segments.length = h.segments.length := by
  simp [update]

/-- The identifier of a new segment is no other segment's, and small. -/
theorem freshId_spec (h : Host) : h.seg h.freshId = none ∧
    0 ≤ h.freshId ∧ h.freshId ≤ h.segments.length := by
  obtain ⟨i, hi, hfree⟩ := exists_unlisted (h.segments.map (·.id)) 0
    (n := h.segments.length + 1) (by simp)
  rw [zero_add] at hfree
  cases hfind : (List.range (h.segments.length + 1)).find? (fun (n : Nat) =>
      h.segments.all fun s => s.id ≠ (n : Int)) with
  | none =>
      rw [List.find?_eq_none] at hfind
      have := hfind i (List.mem_range.mpr hi)
      simp only [List.all_eq_true, decide_eq_true_eq, not_forall,
        not_not] at this
      obtain ⟨s, hs, heq⟩ := this
      exact absurd (List.mem_map.mpr ⟨s, hs, heq⟩) hfree
  | some n =>
      have hmem := List.mem_range.mp (List.mem_of_find?_eq_some hfind)
      have hnew := List.find?_some hfind
      simp only [List.all_eq_true, decide_eq_true_eq] at hnew
      rw [show h.freshId = (n : Int) by rw [freshId, hfind]]
      refine ⟨?_, by omega, by omega⟩
      rw [seg, List.find?_eq_none]
      intro s hs
      simpa using hnew s hs

/-- A key of the range that no segment has. -/
theorem exists_freeKey
    (hroom : h.segments.length < (shmKeyEnd - shmKeyStart).toNat) :
    ∃ key, shmKeyStart ≤ key ∧ key < shmKeyEnd ∧ h.keyInUse key = false := by
  obtain ⟨i, hi, hfree⟩ := exists_unlisted (h.segments.filterMap (·.key))
    shmKeyStart (Nat.lt_of_le_of_lt (List.length_filterMap_le _ _) hroom)
  refine ⟨shmKeyStart + i, by omega, by omega, ?_⟩
  rw [keyInUse, List.any_eq_false]
  intro s hs heq
  exact hfree (List.mem_filterMap.mpr ⟨s, hs, by simpa using heq⟩)

/-- `g_shmKey` is a key of the range. -/
def KeyInRange (h : Host) : Prop :=
  shmKeyStart ≤ h.shmKey ∧ h.shmKey < shmKeyEnd

theorem nextKey_cases (h : Host) :
    (shmKeyEnd ≤ h.shmKey + 1 ∧ h.nextKey.shmKey = shmKeyStart) ∨
      (h.shmKey + 1 < shmKeyEnd ∧ h.nextKey.shmKey = h.shmKey + 1) := by
  unfold nextKey
  split
  · next hend => exact .inl ⟨hend, rfl⟩
  · next hend => exact .inr ⟨Int.not_le.mp hend, rfl⟩

theorem nextKey_inRange (hk : h.KeyInRange) : h.nextKey.KeyInRange := by
  obtain ⟨hlo, hhi⟩ := hk
  rw [KeyInRange]
  rcases h.nextKey_cases with ⟨hend, heq⟩ | ⟨hend, heq⟩
  · rw [heq]
    exact ⟨by decide, by decide⟩
  · rw [heq]
    omega

@[simp] theorem nextKey_segments : h.nextKey.segments = h.segments := rfl

/-- How far a key lies ahead on the circle of keys. -/
def ahead (h : Host) (key : Int) : Int :=
  (key - h.shmKey) % (shmKeyEnd - shmKeyStart)

/-- A step of the walk comes one nearer to every key but the current one. -/
theorem ahead_nextKey (hk : h.KeyInRange) {key : Int}
    (hlo : shmKeyStart ≤ key) (hhi : key < shmKeyEnd) (hne : key ≠ h.shmKey) :
    h.nextKey.ahead key = h.ahead key - 1 := by
  obtain ⟨hklo, hkhi⟩ := hk
  simp only [ahead, shmKeyStart, shmKeyEnd] at *
  rcases h.nextKey_cases with ⟨hend, heq⟩ | ⟨hend, heq⟩ <;>
    simp only [shmKeyStart, shmKeyEnd] at hend heq <;> rw [heq] <;> omega

theorem shmat_shmKey {id : Int} : (h.shmat served id).2.shmKey = h.shmKey := by
  unfold shmat call
  cases served h.calls.length with
  | false => rfl
  | true =>
      dsimp only
      split <;> rfl

theorem shmdt_shmKey {id : Int} : (h.shmdt served id).2.shmKey = h.shmKey := by
  unfold shmdt call
  cases served h.calls.length with
  | false => rfl
  | true =>
      dsimp only
      split
      · rfl
      · split <;> rfl

theorem shmRmid_shmKey {id : Int} : (h.shmRmid served id).shmKey = h.shmKey := by
  unfold shmRmid call
  cases served h.calls.length with
  | false => rfl
  | true =>
      dsimp only
      split
      · rfl
      · split <;> rfl

end Host

variable {served : Nat → Bool}

/-- The host a successful search leaves: one more segment, under a key that
was free. -/
structure Acquired (h h' : Host) (shmId : Int) (size : Nat) : Prop where
  id : shmId = h.freshId
  created : ∃ key, shmKeyStart ≤ key ∧ key < shmKeyEnd ∧
    h.keyInUse key = false ∧
    h'.segments = ⟨shmId, some key, List.replicate size 0, 0, 0⟩ :: h.segments
  inRange : h'.KeyInRange

theorem acquireLoop_finds (hserved : ∀ n, served n = true) {size : Nat}
    {attempts : Nat} {h : Host} (hk : h.KeyInRange) {key : Int}
    (hlo : shmKeyStart ≤ key) (hhi : key < shmKeyEnd)
    (hfree : h.keyInUse key = false) (hnear : h.ahead key < attempts) :
    ∃ shmId h', acquireLoop served size attempts h = (shmId, h') ∧
      Acquired h h' shmId size := by
  induction attempts generalizing h with
  | zero =>
      have hpos : 0 ≤ h.ahead key := Int.emod_nonneg _ (by decide)
      omega
  | succ attempts ih =>
      simp only [acquireLoop, Host.shmget, Host.call, hserved]
      by_cases hused : h.keyInUse h.shmKey = true
      · -- The current key is taken, so the free one lies ahead.
        have hne : key ≠ h.shmKey := by
          rintro rfl
          rw [hused] at hfree
          cases hfree
        have hused' : (⟨h.segments, h.shmKey, h.calls ++
            [.shmget h.shmKey]⟩ : Host).keyInUse h.shmKey = true := hused
        rw [hused', if_pos rfl]
        have hstep := Host.ahead_nextKey hk hlo hhi hne
        obtain ⟨shmId, h', hrun, hacq⟩ := ih (h := Host.nextKey
          ⟨h.segments, h.shmKey, h.calls ++ [.shmget h.shmKey]⟩)
          (Host.nextKey_inRange hk) (by simpa [Host.keyInUse] using hfree)
          (by
            show h.nextKey.ahead key < attempts
            rw [hstep]
            push_cast at hnear
            omega)
        refine ⟨shmId, h', hrun, ?_, ?_, hacq.inRange⟩
        · rw [hacq.id]
          simp [Host.freshId]
        · simpa [Host.keyInUse] using hacq.created
      · have hused' : (⟨h.segments, h.shmKey, h.calls ++
            [.shmget h.shmKey]⟩ : Host).keyInUse h.shmKey = false :=
          Bool.eq_false_iff.mpr hused
        rw [hused', if_neg (by simp)]
        refine ⟨h.freshId, _, rfl, rfl, ⟨h.shmKey, hk.1, hk.2,
          Bool.eq_false_iff.mpr hused, ?_⟩, Host.nextKey_inRange hk⟩
        rw [Host.nextKey_segments]
        rfl

/-- With fewer segments than keys `AcquireShmSegment` creates a segment. -/
theorem acquireShmSegment_ok (hserved : ∀ n, served n = true) {h : Host}
    (hk : h.KeyInRange)
    (hroom : h.segments.length < (shmKeyEnd - shmKeyStart).toNat)
    (size : Nat) :
    ∃ shmId h', acquireShmSegment served h size = (shmId, h') ∧
      Acquired h h' shmId size := by
  obtain ⟨key, hlo, hhi, hfree⟩ := Host.exists_freeKey hroom
  apply acquireLoop_finds hserved hk hlo hhi hfree
  have hlt : h.ahead key < shmKeyEnd - shmKeyStart :=
    Int.emod_lt_of_pos _ (by decide)
  rw [Int.toNat_of_nonneg (by decide)]
  exact hlt

end AiEngine.Ref
