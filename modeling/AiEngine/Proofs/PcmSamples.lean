import AiEngine.Proofs.PcmBounds

/-!
# The samples at the places

`PCMIterator` and `PcmPositions` follow the same functions, one with the
samples and the other with their places. A call on the places that stays
inside is the same call on the samples: the numbers are the same from then on,
and what `Next` returns of the samples is what is at the place it returns. So
the iterator with its samples does not leave its arrays either, whatever the
order of the calls.
-/

namespace AiEngine.Ref

open AiEngine.Lib

/-- The samples of an array, out of what its block contains. -/
def PcmArray.samples (x : PcmArray) (mem : PcmBlock → List Int16) :
    List Int16 :=
  x.block.elim [] fun block => ((mem block).drop x.offset).take x.size

section

variable {mem : PcmBlock → List Int16} {x : PcmArray}

theorem PcmArray.samples_some {block : PcmBlock} (h : x.block = some block) :
    x.samples mem = ((mem block).drop x.offset).take x.size := by
  rw [samples, h]
  rfl

theorem PcmArray.samples_none (h : x.block = none) : x.samples mem = [] := by
  rw [samples, h]
  rfl

theorem PcmArray.length_samples (hin : x.Inside)
    (hmem : ∀ block, (mem block).length = block.cells) :
    (x.samples mem).length = x.size := by
  cases hblock : x.block with
  | none => rw [samples_none hblock, hin.null hblock, List.length_nil]
  | some block =>
      have hend := hin.block block hblock
      rw [samples_some hblock, List.length_take, List.length_drop, hmem]
      omega

theorem PcmArray.samples_part (d n : Nat) (hle : d + n ≤ x.size) :
    PcmArray.samples ⟨x.block, x.offset + d, n⟩ mem =
      ((x.samples mem).drop d).take n := by
  cases hblock : x.block with
  | none => rw [samples_none rfl, samples_none hblock, List.drop_nil,
      List.take_nil]
  | some block =>
      rw [samples_some rfl, samples_some hblock, List.drop_take,
        List.drop_drop, List.take_take, Nat.min_eq_left (by omega)]

end

/-- A copy of cells, where neither range leaves its block. -/
theorem memcpyCells_total (dest src : List Int16)
    {dpos destMax spos count : Nat} (hdest : dpos + destMax ≤ dest.length)
    (hsrc : spos + count ≤ src.length) :
    (memcpyOk (destMax * 2) (count * 2) = true →
      ∃ cells, memcpyCells dest dpos destMax src spos count = .ok cells ∧
        cells.length = dest.length) ∧
    (memcpyOk (destMax * 2) (count * 2) = false →
      memcpyCells dest dpos destMax src spos count = .fail eRange) := by
  constructor
  · intro hok
    have hcount : count * 2 ≤ destMax * 2 := by
      simp only [memcpyOk, Bool.and_eq_true, decide_eq_true_eq] at hok
      exact hok.2
    obtain ⟨v, hload⟩ := load_isSome hsrc
    have hlen : v.toList.length = count := Vector.length_toList
    obtain ⟨cells, hstore⟩ := store_isSome v.toList
      (show dpos + v.toList.length ≤ dest.length by omega)
    exact ⟨cells, by simp only [memcpyCells, hok, hload, hstore, if_true],
      (store_spec hstore).1⟩
  · intro hno
    simp only [memcpyCells, hno, Bool.false_eq_true, if_false]

theorem add_of_sizeSub {m n d : Nat} (h : sizeSub m n = some d) :
    n + d = m := by
  unfold sizeSub at h
  split at h
  · cases h
    omega
  · cases h

/-- A difference that is not below zero is the one of the code. -/
theorem sub_of_sizeSub {a : Abi} {m n d : Nat} (h : sizeSub m n = some d)
    (hm : m < a.sizeMod) : a.sub m n = d := by
  have hadd := add_of_sizeSub h
  rw [Abi.sub_of_le (by omega) hm]
  omega

namespace PCMIterator

variable {a : Abi} {mem : PcmBlock → List Int16} {it : PCMIterator}
  {s s' : PcmPositions} {d x : PcmArray} {retCode : Int}

/-- The iterator has the samples at the places, and none of them is data in
the cache. -/
def Follows (mem : PcmBlock → List Int16) (s : PcmPositions)
    (it : PCMIterator) : Prop :=
  ∃ d, s = it.positions d ∧ it.pcmData = d.samples mem ∧
    ∀ cells, d.block ≠ some (.cache cells)

theorem cells_length {S W : Nat} (hb : (it.positions d).Bounded S W) :
    it.cells.length = room S W := by
  rcases hb.cache with hcache | hcache
  · exact congrArg PcmBlock.cells (Option.some.inj hcache)
  · exact absurd hcache.1 (by simp [positions])

theorem Follows.length_data (h : Follows mem s it) (hin : s.pcmData.Inside)
    (hmem : ∀ block, (mem block).length = block.cells) :
    it.pcmData.length = s.pcmData.size := by
  obtain ⟨d, rfl, hdata, _⟩ := h
  rw [hdata]
  exact PcmArray.length_samples hin hmem

/-! ## Copies

The two moves of cells. Where the ranges on the places do not leave their
blocks, neither do the ones on the samples, and what is then in the cache is
the same. -/

theorem memcpyCells_given (hmem : ∀ block, (mem block).length = block.cells)
    {dpos destMax count : Nat} {copied : Bool} (hx : x.block ≠ none)
    (hgiven : ∀ cells, x.block ≠ some (.cache cells))
    (hcount : count ≤ x.size)
    (h : (it.positions d).copyToCache dpos destMax x count = some copied) :
    (copied = true → ∃ cells,
      memcpyCells it.cells dpos destMax (x.samples mem) 0 count = .ok cells ∧
        cells.length = it.cells.length) ∧
    (copied = false →
      memcpyCells it.cells dpos destMax (x.samples mem) 0 count =
        .fail eRange) := by
  obtain ⟨block, hblock⟩ := Option.ne_none_iff_exists'.mp hx
  have hcache : block ≠ .cache it.cells.length := fun heq =>
    hgiven _ (heq ▸ hblock)
  simp only [PcmPositions.copyToCache, positions, hblock] at h
  split at h
  · cases h
  · next hdest =>
      split at h
      · cases h
      · next hsrc =>
          rw [if_neg fun hov => hcache hov.1] at h
          cases h
          have hlen : 0 + count ≤ (x.samples mem).length := by
            rw [PcmArray.samples_some hblock, List.length_take,
              List.length_drop, hmem]
            omega
          exact memcpyCells_total _ _ (Nat.not_lt.mp hdest) hlen

theorem endMove_positions {size : Nat} {cells : List Int16}
    (hlen : cells.length = it.cells.length)
    (h : (it.positions d).endMove a size = some (retCode, s')) :
    retCode = Retcode.success ∧
      s' = (it.endMove a cells size).positions d := by
  unfold PcmPositions.endMove at h
  split at h
  · cases h
  · next left hleft =>
      dsimp only at h
      split at h
      · cases h
      · next numCopy hcopy =>
          have hmod : a.sizeT (left / (it.positions d).stepSize *
              (it.positions d).stepSize + (it.positions d).windowSize) <
                a.sizeMod := Nat.mod_lt _ (by have := a.sizeMod_ge; omega)
          have hsize : size < a.sizeMod := by
            have hadd := add_of_sizeSub hcopy
            omega
          have hleft' := sub_of_sizeSub hleft hsize
          have hcopy' := sub_of_sizeSub hcopy hmod
          cases h
          refine ⟨rfl, ?_⟩
          simp only [endMove, positions, hleft', hlen] at hcopy' ⊢
          rw [hcopy']

/-- `MoveDataToCache` of an array of a caller either copies it or refuses
it. -/
theorem moveDataToCache_positions
    (hmem : ∀ block, (mem block).length = block.cells) (hx : x.block ≠ none)
    (hgiven : ∀ cells, x.block ≠ some (.cache cells)) (hin : x.Inside)
    (h : (it.positions d).moveDataToCache a x = some (retCode, s')) :
    (∃ cells, it.moveDataToCache a (x.samples mem) =
        .ok (it.endMove a cells x.size) ∧
      s' = (it.endMove a cells x.size).positions d ∧
      retCode = Retcode.success) ∨
    (it.moveDataToCache a (x.samples mem) = .fail retCode ∧
      s' = it.positions d) := by
  have hlen := PcmArray.length_samples hin hmem
  unfold PcmPositions.moveDataToCache at h
  cases hcopy : (it.positions d).copyToCache 0 (it.positions d).maxCacheSize x
      x.size with
  | none =>
      rw [hcopy] at h
      cases h
  | some copied =>
      rw [hcopy] at h
      obtain ⟨hok, hno⟩ := memcpyCells_given hmem hx hgiven (Nat.le_refl _)
        hcopy
      simp only [moveDataToCache, hlen]
      cases copied with
      | false =>
          cases h
          rw [show it.maxCacheSize.toNat = (it.positions d).maxCacheSize from
            rfl, hno rfl]
          exact .inr ⟨rfl, rfl⟩
      | true =>
          obtain ⟨cells, hrun, hcells⟩ := hok rfl
          obtain ⟨hcode, hs'⟩ := endMove_positions hcells h
          rw [show it.maxCacheSize.toNat = (it.positions d).maxCacheSize from
            rfl, hrun]
          exact .inl ⟨cells, rfl, hs', hcode⟩

theorem moveCacheToFront_positions
    (h : (it.positions d).moveDataToCache a
      ⟨(it.positions d).cache, it.nextCachePos, it.cacheSize⟩ =
        some (retCode, s')) :
    (∃ cells, it.moveCacheToFront a =
        .ok (it.endMove a cells it.cacheSize) ∧
      s' = (it.endMove a cells it.cacheSize).positions d) ∨
    (it.moveCacheToFront a = .fail retCode ∧ s' = it.positions d) := by
  unfold PcmPositions.moveDataToCache at h
  simp only [PcmPositions.copyToCache, positions] at h
  by_cases hdest : (PcmBlock.cache it.cells.length).cells <
      0 + it.maxCacheSize.toNat
  · simp only [if_pos hdest] at h
    cases h
  · simp only [if_neg hdest] at h
    by_cases hsrc : (PcmBlock.cache it.cells.length).cells <
        it.nextCachePos + it.cacheSize
    · simp only [if_pos hsrc] at h
      cases h
    · simp only [if_neg hsrc, true_and] at h
      by_cases hover : 0 < it.nextCachePos ∧ it.nextCachePos < it.cacheSize
      · have hoverlaps : PcmPositions.overlaps 0 it.nextCachePos
            it.cacheSize = true := by
          simp [PcmPositions.overlaps, hover.1, hover.2]
        simp only [hoverlaps, if_true] at h
        cases h
        exact .inr ⟨by rw [moveCacheToFront, if_pos hover], rfl⟩
      · have hoverlaps : PcmPositions.overlaps 0 it.nextCachePos
            it.cacheSize = false := by
          simp [PcmPositions.overlaps]
          omega
        simp only [hoverlaps, Bool.false_eq_true, if_false] at h
        obtain ⟨hok, hno⟩ := memcpyCells_total it.cells it.cells
          (Nat.not_lt.mp hdest) (Nat.not_lt.mp hsrc)
        rw [moveCacheToFront, if_neg hover]
        cases hcopied : memcpyOk (it.maxCacheSize.toNat * 2)
            (it.cacheSize * 2) with
        | false =>
            rw [hcopied] at h
            cases h
            rw [hno hcopied]
            exact .inr ⟨rfl, rfl⟩
        | true =>
            rw [hcopied] at h
            obtain ⟨cells, hrun, hcells⟩ := hok hcopied
            have hmove : (it.positions d).endMove a it.cacheSize =
                some (retCode, s') := h
            obtain ⟨-, hs'⟩ := endMove_positions hcells hmove
            rw [hrun]
            exact .inl ⟨cells, rfl, hs'⟩

/-! ## New data

`Prepare` has a part for each relation of the new array to what the cache
still needs. The parts are followed one by one, up to the numbers they leave.
-/

theorem endPrepare_positions
    (hmem : ∀ block, (mem block).length = block.cells)
    (hdata : it.pcmData = d.samples mem)
    (hgiven : ∀ cells, d.block ≠ some (.cache cells)) (hin : d.Inside)
    (h : (it.positions d).endPrepare a = some (retCode, s')) :
    ∃ it', it.endPrepare a = some (retCode, it') ∧ Follows mem s' it' := by
  have hlen : it.pcmData.length = d.size := by
    rw [hdata, PcmArray.length_samples hin hmem]
  unfold PcmPositions.endPrepare at h
  rw [endPrepare, hlen]
  split at h
  · next hwindow =>
      have hwindow' : it.windowSize ≤ it.cacheSize ∨ it.windowSize ≤ d.size :=
        hwindow
      cases h
      rw [if_pos hwindow']
      exact ⟨_, rfl, d, rfl, hdata, hgiven⟩
  · next hnone =>
      have hnone' : ¬ (it.windowSize ≤ it.cacheSize ∨
          it.windowSize ≤ d.size) := hnone
      rw [if_neg hnone']
      split at h
      · next hshort =>
          have hshort' : it.cacheSize = 0 ∧ 0 < d.size ∧
              d.size < it.windowSize := hshort
          have hblock : d.block ≠ none := fun hno =>
            Nat.lt_irrefl 0 (hin.null hno ▸ hshort'.2.1)
          rw [if_pos hshort', hdata]
          rcases moveDataToCache_positions hmem hblock hgiven hin h with
            ⟨cells, hmove, rfl, rfl⟩ | ⟨hmove, rfl⟩
          · rw [hmove]
            exact ⟨_, rfl, d, rfl, hdata, hgiven⟩
          · rw [hmove]
            exact ⟨_, rfl, d, rfl, hdata, hgiven⟩
      · next hkept =>
          have hkept' : ¬ (it.cacheSize = 0 ∧ 0 < d.size ∧
              d.size < it.windowSize) := hkept
          cases h
          rw [if_neg hkept']
          exact ⟨_, rfl, d, rfl, hdata, hgiven⟩

theorem endFill_positions (hmem : ∀ block, (mem block).length = block.cells)
    (hgiven : ∀ cells, x.block ≠ some (.cache cells)) (hin : x.Inside)
    {diff : Int} (hdiff : toInt32
      ((it.numRealCopy : Int) - it.windowSize + it.stepSize) = diff)
    (h : (it.positions d).endFill a x = some (retCode, s')) :
    ∃ it', ({ it with pcmData :=
        if 0 < diff then (x.samples mem).drop diff.toNat
        else x.samples mem } : PCMIterator).endPrepare a =
          some (retCode, it') ∧ Follows mem s' it' := by
  rw [PcmPositions.endFill, show toInt32 (((it.positions d).numRealCopy : Int) -
    (it.positions d).windowSize + (it.positions d).stepSize) = diff from
      hdiff] at h
  split at h
  · next hpos =>
      rw [if_pos hpos]
      split at h
      · cases h
      · next size hsize =>
          have hle : diff.toNat + size = x.size := add_of_sizeSub hsize
          have hpart : (x.samples mem).drop diff.toNat =
              PcmArray.samples ⟨x.block, x.offset + diff.toNat, size⟩ mem := by
            rw [PcmArray.samples_part _ _ (Nat.le_of_eq hle),
              List.take_of_length_le]
            rw [List.length_drop, PcmArray.length_samples hin hmem]
            omega
          rw [hpart]
          exact endPrepare_positions hmem rfl hgiven
            (hin.part (Nat.le_of_eq hle)) h
  · next hno =>
      rw [if_neg hno]
      exact endPrepare_positions (d := x) hmem rfl hgiven hin h

theorem endCopy_positions (hmem : ∀ block, (mem block).length = block.cells)
    (hgiven : ∀ cells, x.block ≠ some (.cache cells)) (hin : x.Inside)
    {diff : Int} (hdiff : toInt32
      ((it.numRealCopy : Int) - it.windowSize + it.stepSize) = diff)
    (h : (if it.numCopy = 0 then (it.positions d).endFill a x
      else (it.positions .null).endPrepare a) = some (retCode, s')) :
    ∃ it', (if it.numCopy = 0 then
        ({ it with pcmData :=
          if 0 < diff then (x.samples mem).drop diff.toNat
          else x.samples mem } : PCMIterator).endPrepare a
      else ({ it with pcmData := [] } : PCMIterator).endPrepare a) =
        some (retCode, it') ∧ Follows mem s' it' := by
  split at h
  · next hfull =>
      rw [if_pos hfull]
      exact endFill_positions hmem hgiven hin hdiff h
  · next hmore =>
      rw [if_neg hmore]
      have hnull : (({ it with pcmData := [] } : PCMIterator).positions
          .null).endPrepare a = some (retCode, s') := h
      exact endPrepare_positions (d := .null) hmem rfl
        (fun _ hcache => by cases hcache) .empty hnull

theorem prepare_positions (hmem : ∀ block, (mem block).length = block.cells)
    (hmax : it.maxCacheSize.toNat < a.sizeMod)
    (hdata : it.pcmData = d.samples mem)
    (hgiven : ∀ cells, d.block ≠ some (.cache cells))
    (hx : it.numCopy = 0 ∨ x.block ≠ none)
    (hgiven' : ∀ cells, x.block ≠ some (.cache cells)) (hin : x.Inside)
    (h : (it.positions d).prepare a x = some (retCode, s')) :
    ∃ it', it.prepare a (x.samples mem) = some (retCode, it') ∧
      Follows mem s' it' := by
  have hlen := PcmArray.length_samples hin hmem
  unfold PcmPositions.prepare at h
  split at h
  · next hleft =>
      have hleft' : 0 < it.numCopy := hleft
      have hblock := hx.resolve_left (Nat.ne_of_gt hleft')
      rw [prepare, if_pos hleft', hlen]
      obtain ⟨numRealCopy, hreal⟩ : ∃ n, (if x.size < it.numCopy then x.size
        else it.numCopy) = n := ⟨_, rfl⟩
      have hcount : numRealCopy ≤ x.size := by
        split at hreal <;> omega
      rw [show (if x.size < (it.positions d).numCopy then x.size
        else (it.positions d).numCopy) = numRealCopy from hreal] at h
      simp only [hreal]
      dsimp only at h
      split at h
      · cases h
      · next destMax hdest =>
          have hdest' : a.sub it.maxCacheSize.toNat
              (a.sizeT (it.nextCachePos + it.cacheSize)) = destMax :=
            sub_of_sizeSub hdest hmax
          rw [hdest']
          split at h
          · cases h
          · next hcopy =>
              have hcopy' : (({ it with numRealCopy } :
                  PCMIterator).positions d).copyToCache
                    (a.sizeT (it.nextCachePos + it.cacheSize)) destMax x
                    numRealCopy = some false := hcopy
              have hno := (memcpyCells_given hmem hblock hgiven' hcount
                hcopy').2 rfl
              rw [hno]
              cases h
              exact ⟨_, rfl, d, rfl, hdata, hgiven⟩
          · next hcopy =>
              have hcopy' : (({ it with numRealCopy } :
                  PCMIterator).positions d).copyToCache
                    (a.sizeT (it.nextCachePos + it.cacheSize)) destMax x
                    numRealCopy = some true := hcopy
              obtain ⟨cells, hrun, hcells⟩ := (memcpyCells_given hmem hblock
                hgiven' hcount hcopy').1 rfl
              rw [hrun]
              split at h
              · cases h
              · next numCopy hnum =>
                  have hnum' : it.numCopy - numRealCopy = numCopy :=
                    Nat.sub_eq_of_eq_add' (add_of_sizeSub hnum).symm
                  simp only [hnum']
                  obtain ⟨it₂, hit⟩ : ∃ it₂ : PCMIterator, it₂ = { it with
                    numRealCopy
                    cells
                    cacheSize := a.sizeT (it.cacheSize + numRealCopy)
                    numCopy } := ⟨_, rfl⟩
                  have hkept (y : PcmArray) : it₂.positions y =
                      { it.positions y with
                        numRealCopy
                        cacheSize := a.sizeT (it.cacheSize + numRealCopy)
                        numCopy } := by
                    rw [hit]
                    simp only [positions, hcells]
                  have hcopied : (if it₂.numCopy = 0 then
                      (it₂.positions d).endFill a x
                    else (it₂.positions .null).endPrepare a) =
                      some (retCode, s') := by
                    rw [hkept, hkept, show it₂.numCopy = numCopy by rw [hit]]
                    exact h
                  have hfollows := endCopy_positions hmem hgiven' hin rfl
                    hcopied
                  rw [hit] at hfollows
                  exact hfollows
  · next hfull =>
      have hfull' : ¬ 0 < it.numCopy := hfull
      rw [prepare, if_neg hfull']
      have hnow : (({ it with
          numRealCopy := 0
          pcmData := x.samples mem } : PCMIterator).positions x).endPrepare a =
            some (retCode, s') := h
      exact endPrepare_positions (d := x) hmem rfl hgiven' hin hnow

/-- Where there are no data, `memcpy_s` refuses a null pointer, and copies
nothing from an empty list. The iterators are left alike. -/
theorem prepare_null {S W : Nat} (hb : (it.positions d).Bounded S W)
    (hv : Valid S W) (hdata : it.pcmData = d.samples mem)
    (hnull : d.block = none) (hin : d.Inside)
    (hleft : 0 < it.numCopy) (hsome : 0 < it.cacheSize)
    (hshort : it.cacheSize < it.windowSize)
    (h : (it.positions d).prepare a d = some (retCode, s')) :
    ∃ retCode' it', it.prepare a [] = some (retCode', it') ∧
      Follows mem s' it' := by
  have hroom := hv.room
  have hmod := a.sizeMod_ge
  have htotal : it.nextCachePos + it.cacheSize + it.numCopy ≤ room S W :=
    hb.total
  have hmax : it.maxCacheSize.toNat = room S W := hb.maxCacheSize
  have hsize := hin.null hnull
  have hcells := cells_length hb
  have hend : a.sizeT (it.nextCachePos + it.cacheSize) =
      it.nextCachePos + it.cacheSize := Abi.sizeT_of_lt (by omega)
  have hdest : a.sub it.maxCacheSize.toNat (it.nextCachePos + it.cacheSize) =
      room S W - (it.nextCachePos + it.cacheSize) := by
    rw [hmax]
    exact Abi.sub_of_le (by omega) (by omega)
  have hkept : a.sizeT (it.cacheSize + 0) = it.cacheSize :=
    Abi.sizeT_of_lt (by omega)
  have hs' : s' = ({ it with numRealCopy := 0 } : PCMIterator).positions d := by
    have hsub : sizeSub it.maxCacheSize.toNat
        (it.nextCachePos + it.cacheSize) =
          some (room S W - (it.nextCachePos + it.cacheSize)) := by
      rw [hmax]
      exact sizeSub_of_le (by omega)
    have hfits : ¬ (PcmBlock.cache it.cells.length).cells <
        it.nextCachePos + it.cacheSize +
          (room S W - (it.nextCachePos + it.cacheSize)) := by
      show ¬ it.cells.length < _
      omega
    simp only [PcmPositions.prepare, positions, if_pos hleft, hsize, hend,
      hsub, PcmPositions.copyToCache, hnull, if_neg hfits] at h
    cases h
    rfl
  have hnone : d.samples mem = [] := PcmArray.samples_none hnull
  have hgiven : ∀ cells, d.block ≠ some (.cache cells) := fun cells hno => by
    cases hnull.symm.trans hno
  obtain ⟨hok, hno⟩ := memcpyCells_total it.cells []
    (show it.nextCachePos + it.cacheSize +
      (room S W - (it.nextCachePos + it.cacheSize)) ≤ it.cells.length by omega)
    (show 0 + 0 ≤ ([] : List Int16).length from Nat.le_refl _)
  rw [prepare, if_pos hleft]
  simp only [List.length_nil, if_pos hleft, hend, hdest]
  cases hcopied : memcpyOk
      ((room S W - (it.nextCachePos + it.cacheSize)) * 2) (0 * 2) with
  | false =>
      rw [hno hcopied]
      exact ⟨_, _, rfl, d, hs', hdata, hgiven⟩
  | true =>
      obtain ⟨cells, hrun, hlen⟩ := hok hcopied
      have hmore : ¬ it.numCopy - 0 = 0 := by omega
      have hwindow : ¬ (it.windowSize ≤ it.cacheSize ∨ it.windowSize ≤ 0) := by
        omega
      have hsome' : ¬ (it.cacheSize = 0 ∧ 0 < 0 ∧ 0 < it.windowSize) := by
        omega
      rw [hrun]
      simp only [if_neg hmore, endPrepare, List.length_nil, hkept,
        if_neg hwindow, if_neg hsome']
      refine ⟨_, _, rfl, d, ?_, hnone.symm, hgiven⟩
      rw [hs']
      simp only [positions, hlen, Nat.sub_zero]

theorem prepare_data {S W : Nat} (hb : (it.positions d).Bounded S W)
    (hv : Valid S W) (hmem : ∀ block, (mem block).length = block.cells)
    (hdata : it.pcmData = d.samples mem)
    (hgiven : ∀ cells, d.block ≠ some (.cache cells)) (hin : d.Inside)
    (hfew : it.numCopy = 0 ∨
      (0 < it.cacheSize ∧ it.cacheSize < it.windowSize))
    (h : (it.positions d).prepare a d = some (retCode, s')) :
    ∃ retCode' it', it.prepare a it.pcmData = some (retCode', it') ∧
      Follows mem s' it' := by
  have hmax : it.maxCacheSize.toNat < a.sizeMod := by
    have hroom := hv.room
    have hmod := a.sizeMod_ge
    have heq : it.maxCacheSize.toNat = room S W := hb.maxCacheSize
    omega
  by_cases hx : it.numCopy = 0 ∨ d.block ≠ none
  · rw [hdata]
    exact ⟨_, prepare_positions hmem hmax hdata hgiven hx hgiven hin h⟩
  · have hleft : ¬ it.numCopy = 0 := fun hzero => hx (.inl hzero)
    have hnull : d.block = none :=
      Classical.not_not.mp fun hblock => hx (.inr hblock)
    obtain ⟨hsome, hshort⟩ := hfew.resolve_left hleft
    rw [hdata, PcmArray.samples_none hnull]
    exact prepare_null hb hv hdata hnull hin (Nat.pos_of_ne_zero hleft) hsome
      hshort h

section

variable {S W : Nat} {current : Option PcmBlock}

theorem Follows.hasNext (hf : Follows mem s it) (hi : s.Inside S W current)
    (hv : Valid S W) (hmem : ∀ block, (mem block).length = block.cells)
    {more : Bool} (h : s.hasNext a = some (more, s')) :
    ∃ it', it.hasNext a = some (more, it') ∧ Follows mem s' it' := by
  obtain ⟨d, rfl, hdata, hgiven⟩ := hf
  have hin : d.Inside := hi.data
  have hlen : it.pcmData.length = d.size := hdata ▸
    PcmArray.length_samples hin hmem
  unfold PcmPositions.hasNext at h
  rw [PCMIterator.hasNext, hlen]
  split at h
  · next hback =>
      have hback' : 0 < it.nextCachePos ∧ it.numCopy = 0 ∧ 0 < it.cacheSize ∧
          it.cacheSize < it.windowSize := hback
      rw [if_pos hback']
      split at h
      · cases h
      · next code s₁ hmove =>
          obtain ⟨⟨code', s₂⟩, hprepare, hmore⟩ := Option.map_eq_some_iff.mp h
          cases hmore
          obtain ⟨_, _, hmoved, hbounded, _⟩ := hi.bounded.moveRest (a := a) hv
            hback.2.2.1 hback.2.2.2
          cases hmove.symm.trans hmoved
          rcases moveCacheToFront_positions hmove with
            ⟨cells, hfront, rfl⟩ | ⟨hfront, rfl⟩
          · obtain ⟨_, it', hrun, d', rfl, hfollows⟩ := prepare_data
              hbounded hv hmem hdata hgiven hin
              (.inr hback'.2.2) hprepare
            rw [hfront]
            simp only [hrun]
            exact ⟨it', rfl, d', rfl, hfollows⟩
          · obtain ⟨_, it', hrun, d', rfl, hfollows⟩ := prepare_data
              hbounded hv hmem hdata hgiven hin (.inl hback'.2.1) hprepare
            rw [hfront]
            simp only [hrun]
            exact ⟨it', rfl, d', rfl, hfollows⟩
  · next hfar =>
      have hfar' : ¬ (0 < it.nextCachePos ∧ it.numCopy = 0 ∧
          0 < it.cacheSize ∧ it.cacheSize < it.windowSize) := hfar
      rw [if_neg hfar']
      split at h
      · next hshort =>
          have hshort' : it.cacheSize = 0 ∧ 0 < d.size ∧
              d.size < it.windowSize := hshort
          have hblock : d.block ≠ none := fun hno =>
            Nat.lt_irrefl 0 (hin.null hno ▸ hshort'.2.1)
          have hnone : PcmArray.samples ⟨d.block, d.offset, 0⟩ mem = [] :=
            List.length_eq_zero_iff.mp
              (PcmArray.length_samples (hin.part (d := 0)
                (Nat.zero_le _)) hmem)
          rw [if_pos hshort', hdata]
          split at h
          · cases h
          · next code s₁ hmove =>
              cases h
              rcases moveDataToCache_positions hmem hblock hgiven hin
                hmove with ⟨cells, hrun, rfl, _⟩ | ⟨hrun, rfl⟩
              · rw [hrun]
                exact ⟨_, rfl, ⟨d.block, d.offset, 0⟩, rfl, hnone.symm,
                  hgiven⟩
              · rw [hrun]
                exact ⟨_, rfl, ⟨d.block, d.offset, 0⟩, rfl, hnone.symm,
                  hgiven⟩
      · next hlong =>
          have hlong' : ¬ (it.cacheSize = 0 ∧ 0 < d.size ∧
              d.size < it.windowSize) := hlong
          cases h
          rw [if_neg hlong']
          exact ⟨it, rfl, d, rfl, hdata, hgiven⟩

theorem Follows.setInput (hf : Follows mem s it) (hi : s.Inside S W current)
    (hv : Valid S W) (hmem : ∀ block, (mem block).length = block.cells)
    (hx : x.block ≠ none) (hgiven : ∀ cells, x.block ≠ some (.cache cells))
    (hin : x.Inside) (h : s.setInput a x = some (retCode, s')) :
    ∃ it', it.setInput a (x.samples mem) = some (retCode, it') ∧
      Follows mem s' it' := by
  have hbegun : s.isInitialized = true := hi.bounded.initialized
  obtain ⟨more, s₁, hhas, hi₁⟩ := hi.hasNext (a := a) hv
  obtain ⟨it₁, hrun, hf₁⟩ := hf.hasNext hi hv hmem hhas
  have hbegun' : it.isInitialized = true := by
    obtain ⟨d, rfl, _⟩ := hf
    exact hbegun
  rw [PcmPositions.setInput, if_neg (not_not.mpr hbegun), hhas] at h
  rw [PCMIterator.setInput, if_neg (not_not.mpr hbegun'), hrun,
    PcmArray.length_samples hin hmem]
  cases more with
  | true =>
      cases h
      exact ⟨it₁, rfl, hf₁⟩
  | false =>
      dsimp only at h ⊢
      split at h
      · next hempty =>
          cases h
          rw [if_pos (hempty.resolve_left hx)]
          exact ⟨it₁, rfl, hf₁⟩
      · next hsome =>
          rw [if_neg fun hzero => hsome (.inr hzero)]
          obtain ⟨d₁, rfl, hdata, hkept⟩ := hf₁
          have hmax : it₁.maxCacheSize.toNat < a.sizeMod := by
            have hroom := hv.room
            have hmod := a.sizeMod_ge
            have heq : it₁.maxCacheSize.toNat = room S W :=
              hi₁.bounded.maxCacheSize
            omega
          exact prepare_positions hmem hmax hdata hkept (.inr hx) hgiven hin h

/-- What the blocks contain: the inputs do not change, the cache is the one of
the iterator. -/
def memory (it : PCMIterator) (mem : PcmBlock → List Int16) :
    PcmBlock → List Int16
  | .cache _ => it.cells
  | .input number cells => mem (.input number cells)

theorem memory_congr {it' : PCMIterator} (h : it'.cells = it.cells) :
    it'.memory mem = it.memory mem := by
  funext block
  cases block with
  | cache cells => exact h
  | input number cells => rfl

theorem samples_memory (hgiven : ∀ cells, d.block ≠ some (.cache cells)) :
    d.samples (it.memory mem) = d.samples mem := by
  cases hblock : d.block with
  | none => rw [PcmArray.samples_none hblock, PcmArray.samples_none hblock]
  | some block =>
      rw [PcmArray.samples_some hblock, PcmArray.samples_some hblock]
      cases block with
      | cache cells => exact absurd hblock (hgiven cells)
      | input number cells => rfl

theorem Follows.takeCached (hf : Follows mem s it) (hi : s.Inside S W current)
    {output : PcmArray} (hW : W ≤ s.cacheSize)
    (h : s.takeCached a = some (output, s')) :
    ∃ it', it.takeCached a = some (output.samples (it.memory mem), it') ∧
      it'.cells = it.cells ∧ Follows mem s' it' := by
  obtain ⟨d, rfl, hdata, hgiven⟩ := hf
  have hwindow : it.windowSize = W := hi.bounded.windowSize
  have htotal : it.nextCachePos + it.cacheSize + it.numCopy ≤ room S W :=
    hi.bounded.total
  have hsome : it.windowSize ≤ it.cacheSize := hwindow ▸ hW
  have hcells : it.cells.length = room S W := cells_length hi.bounded
  obtain ⟨v, hload⟩ := load_isSome
    (show it.nextCachePos + it.windowSize ≤ it.cells.length by omega)
  have hv := (load_spec hload).2
  unfold PcmPositions.takeCached at h
  rw [PCMIterator.takeCached, hload]
  split at h
  · cases h
  · next cacheSize hsize =>
      have hsize' : it.cacheSize - it.stepSize = cacheSize :=
        Nat.sub_eq_of_eq_add' (add_of_sizeSub hsize).symm
      dsimp only at h ⊢
      rw [hsize']
      split at h
      · next hlast =>
          have hlast' : it.numCopy = 0 ∧ cacheSize < it.windowSize := hlast
          cases h
          rw [if_pos hlast']
          exact ⟨_, congrArg (fun cells => some (cells, _)) hv, rfl, d, rfl,
            hdata, hgiven⟩
      · next hmore =>
          have hmore' : ¬ (it.numCopy = 0 ∧ cacheSize < it.windowSize) := hmore
          cases h
          rw [if_neg hmore']
          exact ⟨_, congrArg (fun cells => some (cells, _)) hv, rfl, d, rfl,
            hdata, hgiven⟩

theorem Follows.takeGiven (hf : Follows mem s it) (hdin : s.pcmData.Inside)
    (hmem : ∀ block, (mem block).length = block.cells) {output : PcmArray}
    (hW : s.windowSize ≤ s.pcmData.size)
    (h : s.takeGiven = some (output, s')) :
    it.pcmData.take it.windowSize = output.samples (it.memory mem) ∧
      Follows mem s' { it with pcmData := it.pcmData.drop it.stepSize } := by
  obtain ⟨d, rfl, hdata, hgiven⟩ := hf
  have hin : d.Inside := hdin
  have hwindow : 0 + it.windowSize ≤ d.size := (Nat.zero_add _).symm ▸ hW
  simp only [PcmPositions.takeGiven] at h
  split at h
  · cases h
  · next size hsize =>
      have hle : it.stepSize + size = d.size := add_of_sizeSub hsize
      cases h
      refine ⟨?_, ⟨d.block, d.offset + it.stepSize, size⟩, rfl, ?_, hgiven⟩
      · rw [hdata]
        exact (PcmArray.samples_part 0 it.windowSize hwindow).symm.trans
          (samples_memory (d := ⟨d.block, d.offset, it.windowSize⟩)
            hgiven).symm
      · show it.pcmData.drop it.stepSize =
          PcmArray.samples ⟨d.block, d.offset + it.stepSize, size⟩ mem
        rw [PcmArray.samples_part it.stepSize size (Nat.le_of_eq hle), hdata,
          List.take_of_length_le]
        rw [List.length_drop, PcmArray.length_samples hin hmem]
        omega

theorem Follows.endNext (hf : Follows mem s it) (hin : s.pcmData.Inside)
    (hmem : ∀ block, (mem block).length = block.cells) :
    Follows mem s.endNext it.endNext := by
  have hlen := hf.length_data hin hmem
  obtain ⟨d, rfl, hdata, hgiven⟩ := hf
  have hlen : it.pcmData.length = d.size := hlen
  unfold PcmPositions.endNext
  rw [PCMIterator.endNext, hlen]
  split
  · next hlast =>
      have hlast' : it.cacheSize < it.windowSize ∧ d.size < it.windowSize :=
        hlast
      rw [if_pos hlast']
      exact ⟨d, rfl, hdata, hgiven⟩
  · next hmore =>
      have hmore' : ¬ (it.cacheSize < it.windowSize ∧
          d.size < it.windowSize) := hmore
      rw [if_neg hmore']
      exact ⟨d, rfl, hdata, hgiven⟩

theorem memory_endNext : it.endNext.memory mem = it.memory mem := by
  rw [PCMIterator.endNext]
  split
  · rfl
  · rfl

/-- What `Next` returns of the samples is what is at the place it returns. -/
theorem Follows.next (hf : Follows mem s it) (hi : s.Inside S W current)
    (hv : Valid S W) (hmem : ∀ block, (mem block).length = block.cells)
    {output : PcmArray} (h : s.next a = some (output, s')) :
    ∃ it', it.next a = some (output.samples (it'.memory mem), it') ∧
      Follows mem s' it' := by
  obtain ⟨more, s₁, hhas, hi₁⟩ := hi.hasNext (a := a) hv
  obtain ⟨it₁, hrun, hf₁⟩ := hf.hasNext hi hv hmem hhas
  have hwindow := hi₁.bounded.windowSize
  have hcached : it₁.windowSize ≤ it₁.cacheSize ↔
      s₁.windowSize ≤ s₁.cacheSize := by
    obtain ⟨d₁, rfl, _⟩ := hf₁
    rfl
  have hheld : it₁.windowSize ≤ it₁.pcmData.length ↔
      s₁.windowSize ≤ s₁.pcmData.size := by
    rw [hf₁.length_data hi₁.data hmem]
    obtain ⟨d₁, rfl, _⟩ := hf₁
    rfl
  rw [PcmPositions.next, hhas] at h
  rw [PCMIterator.next, hrun]
  cases more with
  | false =>
      cases h
      exact ⟨it₁, rfl, hf₁⟩
  | true =>
      dsimp only at h ⊢
      split at h
      · next hcache =>
          rw [if_pos (hcached.mpr hcache)]
          obtain ⟨⟨place, s₂⟩, htake, hend⟩ := Option.map_eq_some_iff.mp h
          cases hend
          obtain ⟨_, _, hkept, hi₂, _⟩ :=
            hi₁.takeCached (a := a) hv (hwindow ▸ hcache)
          cases htake.symm.trans hkept
          obtain ⟨it₂, htaken, hcells, hf₂⟩ :=
            hf₁.takeCached hi₁ (hwindow ▸ hcache) htake
          rw [htaken]
          refine ⟨it₂.endNext, ?_, hf₂.endNext hi₂.data hmem⟩
          rw [memory_endNext, memory_congr hcells]
      · next hcache =>
          rw [if_neg (mt hcached.mp hcache)]
          split at h
          · next hgiven =>
              rw [if_pos (hheld.mpr hgiven)]
              obtain ⟨⟨place, s₂⟩, htake, hend⟩ := Option.map_eq_some_iff.mp h
              cases hend
              obtain ⟨_, _, hkept, hi₂, _⟩ :=
                hi₁.takeGiven hv (hwindow ▸ hgiven)
              cases htake.symm.trans hkept
              obtain ⟨htaken, hf₂⟩ :=
                hf₁.takeGiven hi₁.data hmem hgiven htake
              refine ⟨_, ?_, hf₂.endNext hi₂.data hmem⟩
              rw [memory_endNext, htaken]
              rfl
          · next hnone =>
              rw [if_neg (mt hheld.mp hnone)]
              cases h
              exact ⟨_, rfl, hf₁.endNext hi₁.data hmem⟩

end

end PCMIterator

/-- An iterator, and what the last call, if it was `Next`, has returned. -/
structure PcmStream where
  iterator : PCMIterator
  output : List Int16
  deriving DecidableEq, Repr

/-- A call, where the inputs contain `mem`. After `Reset` there is no cache. -/
def PcmStream.call (a : Abi) (mem : PcmBlock → List Int16) (t : PcmStream) :
    PcmCall → Option PcmStream
  | .setInput number cells =>
      (t.iterator.setInput a (mem (.input number cells))).map fun r =>
        ⟨r.2, []⟩
  | .hasNext => (t.iterator.hasNext a).map fun r => ⟨r.2, []⟩
  | .next => (t.iterator.next a).map fun r => ⟨r.2, r.1⟩
  | .reset => none

/-- The calls that are made on an iterator that was initialised, up to the next
`Reset`. -/
def pcmStreamMachine (a : Abi) (mem : PcmBlock → List Int16)
    (stepSize windowSize : Nat) : Machine PcmStream PcmCall where
  start t := ∃ newCells iterator,
    PCMIterator.new.init a stepSize windowSize (some newCells) =
      (Retcode.success, iterator) ∧ t = ⟨iterator, []⟩
  step t call := t.call a mem call

namespace PcmStream

open PCMIterator (Valid Follows)

variable {a : Abi} {mem : PcmBlock → List Int16} {S W : Nat} {s s' : PcmCalls}
  {t : PcmStream}

/-- The samples are those at the places. -/
structure Follows (mem : PcmBlock → List Int16) (s : PcmCalls)
    (t : PcmStream) : Prop where
  iterator : PCMIterator.Follows mem s.iterator t.iterator
  output : t.output = s.output.samples (t.iterator.memory mem)

theorem Follows.call (h : PcmStream.Follows mem s t) (hk : s.Kept S W)
    (hv : Valid S W) (hmem : ∀ block, (mem block).length = block.cells)
    {call : PcmCall} (hcall : call ≠ .reset) (hs : s.call a call = some s') :
    ∃ t', t.call a mem call = some t' ∧ PcmStream.Follows mem s' t' := by
  cases call with
  | setInput number cells =>
      have hin : PcmArray.Inside ⟨some (.input number cells), 0, cells⟩ :=
        .given number cells
      obtain ⟨retCode, s₁, hset, _⟩ := hk.inside.setInput (a := a) hv hin
      obtain ⟨it₁, hrun, hf⟩ := h.iterator.setInput hk.inside hv hmem
        (fun hno => by cases hno) (fun _ hno => by cases hno) hin hset
      simp only [PcmCalls.call, hset] at hs
      cases hs
      have hsamples : PcmArray.samples ⟨some (.input number cells), 0, cells⟩
          mem = mem (.input number cells) :=
        List.take_of_length_le (Nat.le_of_eq (hmem (.input number cells)))
      rw [hsamples] at hrun
      exact ⟨⟨it₁, []⟩, by simp only [PcmStream.call, hrun, Option.map_some],
        hf, rfl⟩
  | hasNext =>
      obtain ⟨⟨more, s₁⟩, hhas, hend⟩ := Option.map_eq_some_iff.mp hs
      cases hend
      obtain ⟨it₁, hrun, hf⟩ := h.iterator.hasNext hk.inside hv hmem hhas
      exact ⟨⟨it₁, []⟩, by simp only [PcmStream.call, hrun, Option.map_some],
        hf, rfl⟩
  | next =>
      obtain ⟨⟨output, s₁⟩, hnext, hend⟩ := Option.map_eq_some_iff.mp hs
      cases hend
      obtain ⟨it₁, hrun, hf⟩ := h.iterator.next hk.inside hv hmem hnext
      exact ⟨⟨it₁, output.samples (it₁.memory mem)⟩,
        by simp only [PcmStream.call, hrun, Option.map_some], hf, rfl⟩
  | reset => exact absurd rfl hcall

/-- The places of the iterator are those of a run without a `Reset`. -/
def Placed (a : Abi) (mem : PcmBlock → List Int16) (S W : Nat)
    (t : PcmStream) : Prop :=
  ∃ s, (pcmCallMachine a S W).Reach (fun _ call => call ≠ .reset) s ∧
    PcmStream.Follows mem s t

theorem Placed.start (hv : Valid S W)
    (ht : (pcmStreamMachine a mem S W).start t) : t.Placed a mem S W := by
  obtain ⟨newCells, it, hinit, rfl⟩ := ht
  refine ⟨_, .start ⟨newCells, it, hinit, rfl⟩, ⟨.null, rfl, ?_, fun _ hno => by
    cases hno⟩, rfl⟩
  obtain ⟨cells, _, rfl⟩ := PCMIterator.init_valid hv hinit
  rfl

theorem Placed.call (h : t.Placed a mem S W) (hv : Valid S W)
    (hmem : ∀ block, (mem block).length = block.cells) {call : PcmCall}
    (hcall : call ≠ .reset) :
    ∃ t', t.call a mem call = some t' ∧ t'.Placed a mem S W := by
  obtain ⟨s, hs, hf⟩ := h
  have hk : s.Kept S W := .of_reach hv hs
  obtain ⟨s₁, hstep, _⟩ := hk.call (a := a) hv call
  obtain ⟨t₁, hrun, hf₁⟩ := hf.call hk hv hmem hcall hstep
  exact ⟨t₁, hrun, s₁, .step hs hcall hstep, hf₁⟩

end PcmStream

end AiEngine.Ref
