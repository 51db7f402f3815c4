import AiEngine.Ref.PcmPositions
import AiEngine.Proofs.PcmWindows

/-!
# The PCM iterator stays in its cache

What the iterator has in its cache, with what comes before it and what it
waits for, never takes more than the cells that `Init` allocates. That holds
because an array that is moved to the cache is shorter than a window, and the
windows that begin in it end within `room` cells; from there on, samples only
go from what is waited for to what is there, and windows from what is there to
what comes before it. After `Reset` there is no cache, and nothing is ever
moved to it.
-/

namespace AiEngine.Ref

open AiEngine.Lib

theorem sizeSub_of_le {m n : Nat} (hle : n ≤ m) :
    sizeSub m n = some (m - n) := if_pos hle

namespace PcmPositions

open PCMIterator (room Valid)

variable {a : Abi} {S W : Nat} {s : PcmPositions} {input : PcmArray}

/-- The positions of an iterator that was initialised, and perhaps reset. -/
structure Bounded (S W : Nat) (s : PcmPositions) : Prop where
  initialized : s.isInitialized = true
  stepSize : s.stepSize = S
  windowSize : s.windowSize = W
  maxCacheSize : s.maxCacheSize = room S W
  cache : s.cache = some (.cache (room S W)) ∨
    (s.cache = none ∧ s.nextCachePos = 0 ∧ s.cacheSize = 0 ∧ s.numCopy = 0)
  total : s.nextCachePos + s.cacheSize + s.numCopy ≤ room S W
  numRealCopy : s.numRealCopy ≤ room S W

end PcmPositions

/-- A part of its block, or nothing. -/
structure PcmArray.Inside (x : PcmArray) : Prop where
  block : ∀ block, x.block = some block → x.offset + x.size ≤ block.cells
  null : x.block = none → x.size = 0

theorem PcmArray.Inside.empty : PcmArray.null.Inside :=
  ⟨fun _ h => (nomatch h), fun _ => rfl⟩

theorem PcmArray.Inside.given (number cells : Nat) :
    PcmArray.Inside ⟨some (.input number cells), 0, cells⟩ := by
  refine ⟨fun block hblock => ?_, fun hno => by cases hno⟩
  cases hblock
  show 0 + cells ≤ cells
  omega

theorem PcmArray.Inside.part {x : PcmArray} (h : x.Inside) {d n : Nat}
    (hle : d + n ≤ x.size) :
    PcmArray.Inside ⟨x.block, x.offset + d, n⟩ := by
  refine ⟨fun block hblock => ?_, fun hnull => ?_⟩
  · have hin := h.block block hblock
    show x.offset + d + n ≤ block.cells
    omega
  · have hnone := h.null hnull
    show n = 0
    omega

namespace PcmPositions

open PCMIterator (room Valid)

variable {a : Abi} {S W : Nat} {s : PcmPositions} {input : PcmArray}

theorem Bounded.setData (h : s.Bounded S W) (data : PcmArray) :
    ({ s with pcmData := data } : PcmPositions).Bounded S W := { h with }

/-- A copy within the cache and the array that it is told of does not leave
them, and a copy takes place in a cache only. -/
theorem Bounded.copyToCache (h : s.Bounded S W) {dpos destMax count : Nat}
    (hdest : dpos + destMax ≤ room S W)
    (hnull : s.cache = none → dpos = 0) (hin : input.Inside)
    (hcount : count ≤ input.size) :
    ∃ copied, s.copyToCache dpos destMax input count = some copied ∧
      (copied = true → s.cache = some (.cache (room S W))) := by
  rcases h.cache with hcache | hcache
  · have hroom : ¬ (PcmBlock.cache (room S W)).cells < dpos + destMax :=
      Nat.not_lt.mpr hdest
    simp only [PcmPositions.copyToCache, hcache, if_neg hroom]
    cases hblock : input.block with
    | none => exact ⟨false, rfl, fun _ => trivial⟩
    | some block =>
        have hend := hin.block block hblock
        simp only [if_neg (show ¬ block.cells < input.offset + count by omega)]
        split
        · exact ⟨false, rfl, fun _ => trivial⟩
        · exact ⟨_, rfl, fun _ => trivial⟩
  · simp only [PcmPositions.copyToCache, hcache.1, if_pos (hnull hcache.1)]
    exact ⟨false, rfl, fun hno => absurd hno Bool.false_ne_true⟩

/-- The windows that begin in less than a window end in the cache. -/
theorem slides_le {size : Nat} (hlt : size < W) :
    (size - 1) / S * S + W ≤ room S W :=
  Nat.add_le_add_right
    (Nat.mul_le_mul_right _ (Nat.div_le_div_right (by omega))) _

/-- The iterator after a move: nothing but its cache is changed. -/
theorem Bounded.endMove (h : s.Bounded S W) (hv : Valid S W)
    (hcache : s.cache = some (.cache (room S W))) {size : Nat}
    (hpos : 0 < size) (hlt : size < W) :
    ∃ s', s.endMove a size = some (Retcode.success, s') ∧ s'.Bounded S W ∧
      s'.pcmData = s.pcmData := by
  have hslides := slides_le (S := S) hlt
  have hroom := hv.room
  have hmod := a.sizeMod_ge
  have hsum : a.sizeT ((size - 1) / s.stepSize * s.stepSize + s.windowSize) =
      (size - 1) / S * S + W := by
    rw [h.stepSize, h.windowSize]
    exact Abi.sizeT_of_lt (by omega)
  have hmore : size ≤ (size - 1) / S * S + W := by omega
  simp only [PcmPositions.endMove, sizeSub_of_le hpos, hsum,
    sizeSub_of_le hmore]
  refine ⟨_, rfl, { h with cache := .inl hcache, total := ?_ }, rfl⟩
  show 0 + size + ((size - 1) / S * S + W - size) ≤ room S W
  omega

theorem Bounded.moveDataToCache (h : s.Bounded S W) (hv : Valid S W)
    (hin : input.Inside) (hpos : 0 < input.size) (hlt : input.size < W) :
    ∃ retCode s', s.moveDataToCache a input = some (retCode, s') ∧
      s'.Bounded S W ∧ s'.pcmData = s.pcmData := by
  have hdest : 0 + s.maxCacheSize ≤ room S W := by
    rw [h.maxCacheSize]
    omega
  obtain ⟨copied, hcopy, hcache⟩ :=
    h.copyToCache hdest (fun _ => rfl) hin (Nat.le_refl _)
  simp only [PcmPositions.moveDataToCache, hcopy]
  cases copied with
  | false => exact ⟨_, _, rfl, h, rfl⟩
  | true =>
      obtain ⟨s', hmove, hkept⟩ := h.endMove (a := a) hv (hcache rfl) hpos hlt
      exact ⟨_, s', hmove, hkept⟩

theorem Bounded.moveRest (h : s.Bounded S W) (hv : Valid S W)
    (hpos : 0 < s.cacheSize) (hlt : s.cacheSize < s.windowSize) :
    ∃ retCode s', s.moveDataToCache a ⟨s.cache, s.nextCachePos, s.cacheSize⟩ =
        some (retCode, s') ∧
      s'.Bounded S W ∧ s'.pcmData = s.pcmData := by
  have htotal := h.total
  have hcached : s.cache = some (.cache (room S W)) :=
    h.cache.resolve_right fun hno => by omega
  have hrest : PcmArray.Inside ⟨s.cache, s.nextCachePos, s.cacheSize⟩ := by
    refine ⟨fun block hblock => ?_, fun hno => ?_⟩
    · cases hcached.symm.trans hblock
      show s.nextCachePos + s.cacheSize ≤ room S W
      omega
    · exact absurd (hcached.symm.trans hno) (by simp)
  exact h.moveDataToCache hv hrest hpos (h.windowSize ▸ hlt)

/-- After `Prepare` of an input, the data is a part of it, and holds a window
only if the call has succeeded. -/
structure Prepared (S W : Nat) (input : PcmArray) (retCode : Int)
    (s : PcmPositions) : Prop where
  bounded : s.Bounded S W
  inside : s.pcmData.Inside
  size : s.pcmData.size ≤ input.size
  window : W ≤ s.pcmData.size →
    retCode = Retcode.success ∧ s.pcmData.block = input.block

theorem Bounded.endPrepare (h : s.Bounded S W) (hv : Valid S W)
    (input : PcmArray) (hin : s.pcmData.Inside) (hsize : s.pcmData.size ≤ input.size)
    (hblock : W ≤ s.pcmData.size → s.pcmData.block = input.block) :
    ∃ retCode s', s.endPrepare a = some (retCode, s') ∧
      s'.Prepared S W input retCode := by
  have hW := h.windowSize
  unfold PcmPositions.endPrepare
  split
  · exact ⟨_, _, rfl, { h with }, hin, hsize,
      fun hle => ⟨rfl, hblock hle⟩⟩
  · next hno =>
      split
      · next hmove =>
          obtain ⟨retCode, s', heq, hkept, hdata⟩ :=
            h.moveDataToCache (a := a) hv hin hmove.2.1 (by omega)
          rw [← hdata] at hin hsize hno
          exact ⟨retCode, s', heq, hkept, hin, hsize, fun hle => by omega⟩
      · exact ⟨_, _, rfl, h, hin, hsize, fun hle => by omega⟩

theorem Bounded.endFill (h : s.Bounded S W) (hv : Valid S W)
    (hin : input.Inside) (hreal : s.numRealCopy ≤ input.size) :
    ∃ retCode s', s.endFill a input = some (retCode, s') ∧
      s'.Prepared S W input retCode := by
  have hstep := hv.stepLe
  have hwindow := hv.windowLe
  have hroom := hv.room
  have hmax := h.numRealCopy
  have hS := h.stepSize
  have hW := h.windowSize
  have hdiff : toInt32 ((s.numRealCopy : Int) - s.windowSize + s.stepSize) =
      (s.numRealCopy : Int) - s.windowSize + s.stepSize :=
    toInt32_eq (by omega) (by omega)
  simp only [PcmPositions.endFill, hdiff]
  split
  · next hpos =>
      have hle : ((s.numRealCopy : Int) - s.windowSize + s.stepSize).toNat ≤
          input.size := by omega
      rw [sizeSub_of_le hle]
      exact (h.setData _).endPrepare hv input (hin.part (by omega))
        (Nat.sub_le _ _) fun _ => rfl
  · exact (h.setData input).endPrepare hv input hin (Nat.le_refl _) fun _ => rfl

/-- `Prepare`. A copy that is refused leaves the data as it was. -/
theorem Bounded.prepare (h : s.Bounded S W) (hv : Valid S W)
    (hin : input.Inside) :
    ∃ retCode s', s.prepare a input = some (retCode, s') ∧
      (s'.Prepared S W input retCode ∨
        (s'.Bounded S W ∧ s'.pcmData = s.pcmData ∧
          retCode ≠ Retcode.success)) := by
  have hroom := hv.room
  have hmod := a.sizeMod_ge
  have htotal := h.total
  unfold PcmPositions.prepare
  split
  · next hleft =>
      generalize hreal : (if input.size < s.numCopy then input.size
        else s.numCopy) = numRealCopy
      have hle : numRealCopy ≤ input.size ∧ numRealCopy ≤ s.numCopy := by
        split at hreal <;> omega
      have hend : a.sizeT (s.nextCachePos + s.cacheSize) =
          s.nextCachePos + s.cacheSize := Abi.sizeT_of_lt (by omega)
      have hmax : s.nextCachePos + s.cacheSize ≤ s.maxCacheSize := by
        rw [h.maxCacheSize]
        omega
      have hnow : ({ s with numRealCopy } : PcmPositions).Bounded S W :=
        { h with numRealCopy := show numRealCopy ≤ room S W by omega }
      have hcached : s.cache = some (.cache (room S W)) :=
        h.cache.resolve_right fun hno => by omega
      have hdest : s.nextCachePos + s.cacheSize +
          (s.maxCacheSize - (s.nextCachePos + s.cacheSize)) ≤ room S W := by
        rw [h.maxCacheSize]
        omega
      obtain ⟨copied, hcopy, _⟩ := hnow.copyToCache hdest
        (fun hno => absurd (hcached.symm.trans hno) (by simp)) hin hle.1
      simp only [hend, sizeSub_of_le hmax, hcopy]
      cases copied with
      | false => exact ⟨_, _, rfl, .inr ⟨hnow, rfl, by decide⟩⟩
      | true =>
          have hsize : a.sizeT (s.cacheSize + numRealCopy) =
              s.cacheSize + numRealCopy := Abi.sizeT_of_lt (by omega)
          simp only [sizeSub_of_le hle.2, hsize]
          have hfilled : ({ s with
              numRealCopy
              cacheSize := s.cacheSize + numRealCopy
              numCopy := s.numCopy - numRealCopy } :
                PcmPositions).Bounded S W := by
            refine { hnow with cache := .inl hcached, total := ?_ }
            show s.nextCachePos + (s.cacheSize + numRealCopy) +
              (s.numCopy - numRealCopy) ≤ room S W
            omega
          split
          · obtain ⟨retCode, s', heq, hkept⟩ :=
              hfilled.endFill (a := a) hv hin hle.1
            exact ⟨retCode, s', heq, .inl hkept⟩
          · have hnone : ¬ W ≤ PcmArray.null.size := by
              have hW := hv.windowSize
              show ¬ W ≤ 0
              omega
            obtain ⟨retCode, s', heq, hkept⟩ :=
              (hfilled.setData .null).endPrepare (a := a) hv input
                .empty (Nat.zero_le _) fun hle => absurd hle hnone
            exact ⟨retCode, s', heq, .inl hkept⟩
  · have hnow : ({ s with numRealCopy := 0 } : PcmPositions).Bounded S W :=
      { h with numRealCopy := Nat.zero_le _ }
    obtain ⟨retCode, s', heq, hkept⟩ :=
      (hnow.setData input).endPrepare (a := a) hv input hin
        (Nat.le_refl _) fun _ => rfl
    exact ⟨retCode, s', heq, .inl hkept⟩

/-- Between two calls, the data is a part of its block, and where it holds a
window, that block is the current input. -/
structure Inside (S W : Nat) (current : Option PcmBlock)
    (s : PcmPositions) : Prop where
  bounded : s.Bounded S W
  data : s.pcmData.Inside
  window : W ≤ s.pcmData.size → s.pcmData.block = current

variable {current : Option PcmBlock}

theorem Inside.hasNext (h : s.Inside S W current) (hv : Valid S W) :
    ∃ more s', s.hasNext a = some (more, s') ∧ s'.Inside S W current := by
  have hW := h.bounded.windowSize
  unfold PcmPositions.hasNext
  split
  · next hback =>
      obtain ⟨retCode, s₁, hmove, hbounded, hdata⟩ :=
        h.bounded.moveRest (a := a) hv hback.2.2.1 hback.2.2.2
      rw [hmove]
      have hin : s₁.pcmData.Inside := hdata ▸ h.data
      obtain ⟨retCode, s₂, hprepare, hkept⟩ :=
        hbounded.prepare (a := a) hv hin
      simp only [hprepare]
      refine ⟨_, s₂, rfl, ?_⟩
      rcases hkept with hkept | ⟨hkept, hsame, _⟩
      · refine ⟨hkept.bounded, hkept.inside, fun hle => ?_⟩
        have hwindow : W ≤ s.pcmData.size :=
          hdata ▸ Nat.le_trans hle hkept.size
        rw [(hkept.window hle).2, hdata, h.window hwindow]
      · rw [hdata] at hsame
        exact ⟨hkept, hsame ▸ h.data, hsame ▸ h.window⟩
  · split
    · next hshort =>
        obtain ⟨retCode, s₁, hmove, hbounded, hdata⟩ :=
          h.bounded.moveDataToCache (a := a) hv h.data hshort.2.1 (by omega)
        rw [hmove]
        have hin : PcmArray.Inside
            ⟨s₁.pcmData.block, s₁.pcmData.offset, 0⟩ := by
          rw [hdata]
          exact h.data.part (d := 0) (Nat.zero_le _)
        have hnone : ¬ W ≤ 0 := by
          have hwindow := hv.windowSize
          omega
        exact ⟨_, _, rfl, hbounded.setData _, hin,
          fun hle => absurd hle hnone⟩
    · exact ⟨_, s, rfl, h⟩

/-- `SetInput`. The input is the current one from then on if it is taken. -/
theorem Inside.setInput (h : s.Inside S W current) (hv : Valid S W)
    (hin : input.Inside) :
    ∃ retCode s', s.setInput a input = some (retCode, s') ∧
      s'.Inside S W
        (if retCode = Retcode.success then input.block else current) := by
  have hbegun : ¬ ¬ s.isInitialized = true := not_not.mpr h.bounded.initialized
  obtain ⟨more, s₁, hhas, h₁⟩ := h.hasNext (a := a) hv
  rw [PcmPositions.setInput, if_neg hbegun, hhas]
  cases more with
  | true => exact ⟨_, s₁, rfl, h₁⟩
  | false =>
      simp only
      split
      · exact ⟨_, s₁, rfl, h₁⟩
      · obtain ⟨retCode, s₂, hprepare, hkept⟩ :=
          h₁.bounded.prepare (a := a) hv hin
        refine ⟨retCode, s₂, hprepare, ?_⟩
        rcases hkept with hkept | ⟨hkept, hsame, hfailed⟩
        · refine ⟨hkept.bounded, hkept.inside, fun hle => ?_⟩
          rw [if_pos (hkept.window hle).1, (hkept.window hle).2]
        · rw [if_neg hfailed]
          exact ⟨hkept, hsame ▸ h₁.data, hsame ▸ h₁.window⟩

theorem Inside.reset (h : s.Inside S W current) :
    s.reset.Inside S W none := by
  have hroom := Nat.zero_le (room S W)
  exact ⟨{ h.bounded with
    cache := .inr ⟨rfl, rfl, rfl, rfl⟩, total := hroom, numRealCopy := hroom },
    .empty, fun _ => rfl⟩

/-- What `Next` returns: nothing, or a window that lies in the cache or in the
current input. -/
def Returned (S W : Nat) (current : Option PcmBlock) (output : PcmArray) :
    Prop :=
  output = .null ∨ (output.size = W ∧ output.Inside ∧
    (output.block = some (.cache (room S W)) ∨ output.block = current))

/-- A window that is taken leaves less in the cache than was there. -/
theorem Inside.takeCached (h : s.Inside S W current) (hv : Valid S W)
    (hW : W ≤ s.cacheSize) :
    ∃ output s', s.takeCached a = some (output, s') ∧
      s'.Inside S W current ∧ Returned S W current output := by
  have hpos := hv.windowSize
  have hstep := hv.stepLe
  have hwindow := hv.windowLe
  have hroom := hv.room
  have hmod := a.sizeMod_ge
  have htotal := h.bounded.total
  have hreal := h.bounded.numRealCopy
  have hS := h.bounded.stepSize
  have hwin := h.bounded.windowSize
  have hcached : s.cache = some (.cache (room S W)) :=
    h.bounded.cache.resolve_right fun hno => by omega
  have hreturned : Returned S W current
      ⟨s.cache, s.nextCachePos, s.windowSize⟩ := by
    refine .inr ⟨hwin, ⟨fun block hblock => ?_, fun hno => ?_⟩, .inl hcached⟩
    · cases hcached.symm.trans hblock
      show s.nextCachePos + s.windowSize ≤ room S W
      omega
    · exact absurd (hcached.symm.trans hno) (by simp)
  have hle : s.stepSize ≤ s.cacheSize := by omega
  have hnext : a.sizeT (s.nextCachePos + s.stepSize) =
      s.nextCachePos + s.stepSize := Abi.sizeT_of_lt (by omega)
  have hdiff : toInt32 ((s.windowSize : Int) - s.stepSize - s.numRealCopy) =
      (s.windowSize : Int) - s.stepSize - s.numRealCopy :=
    toInt32_eq (by omega) (by omega)
  have hkept (n : Nat) (hn : n ≤ s.cacheSize - s.stepSize) :
      ({ s with
        nextCachePos := s.nextCachePos + s.stepSize
        cacheSize := n } : PcmPositions).Inside S W current := by
    refine ⟨{ h.bounded with cache := .inl hcached, total := ?_ }, h.data,
      h.window⟩
    show s.nextCachePos + s.stepSize + n + s.numCopy ≤ room S W
    omega
  simp only [PcmPositions.takeCached, sizeSub_of_le hle, hnext, hdiff]
  split
  · exact ⟨_, _, rfl, hkept _ (by split <;> omega), hreturned⟩
  · exact ⟨_, _, rfl, hkept _ (Nat.le_refl _), hreturned⟩

theorem Inside.takeGiven (h : s.Inside S W current) (hv : Valid S W)
    (hW : W ≤ s.pcmData.size) :
    ∃ output s', s.takeGiven = some (output, s') ∧
      s'.Inside S W current ∧ Returned S W current output := by
  have hstep := hv.stepLe
  have hS := h.bounded.stepSize
  have hwin := h.bounded.windowSize
  have hle : s.stepSize ≤ s.pcmData.size := by omega
  simp only [PcmPositions.takeGiven, sizeSub_of_le hle]
  refine ⟨_, _, rfl, ⟨h.bounded.setData _, h.data.part (by omega),
    fun _ => h.window hW⟩, .inr ⟨hwin, ?_, .inr (h.window hW)⟩⟩
  exact h.data.part (d := 0) (by omega)

theorem Inside.endNext (h : s.Inside S W current) :
    s.endNext.Inside S W current := by
  unfold PcmPositions.endNext
  split
  · exact ⟨{ h.bounded with }, h.data, h.window⟩
  · exact h

theorem Inside.next (h : s.Inside S W current) (hv : Valid S W) :
    ∃ output s', s.next a = some (output, s') ∧ s'.Inside S W current ∧
      Returned S W current output := by
  obtain ⟨more, s₁, hhas, h₁⟩ := h.hasNext (a := a) hv
  have hwin := h₁.bounded.windowSize
  rw [PcmPositions.next, hhas]
  cases more with
  | false => exact ⟨_, s₁, rfl, h₁, .inl rfl⟩
  | true =>
      simp only
      split
      · next hcache =>
          obtain ⟨output, s₂, htake, h₂, hreturned⟩ :=
            h₁.takeCached (a := a) hv (hwin ▸ hcache)
          rw [htake]
          exact ⟨_, _, rfl, h₂.endNext, hreturned⟩
      · split
        · next hgiven =>
            obtain ⟨output, s₂, htake, h₂, hreturned⟩ :=
              h₁.takeGiven hv (hwin ▸ hgiven)
            rw [htake]
            exact ⟨_, _, rfl, h₂.endNext, hreturned⟩
        · exact ⟨_, _, rfl, h₁.endNext, .inl rfl⟩

end PcmPositions

namespace PcmCalls

open PCMIterator (room Valid)

variable {a : Abi} {S W : Nat} {s : PcmCalls}

/-- The invariant of the runs. -/
structure Kept (S W : Nat) (s : PcmCalls) : Prop where
  inside : s.iterator.Inside S W s.current
  output : PcmPositions.Returned S W s.current s.output

theorem Kept.call (h : s.Kept S W) (hv : Valid S W) (call : PcmCall) :
    ∃ s', s.call a call = some s' ∧ s'.Kept S W := by
  cases call with
  | setInput number cells =>
      obtain ⟨retCode, iterator, hset, hkept⟩ :=
        h.inside.setInput (a := a) hv (.given number cells)
      simp only [PcmCalls.call, hset]
      exact ⟨_, rfl, hkept, .inl rfl⟩
  | hasNext =>
      obtain ⟨more, iterator, hhas, hkept⟩ := h.inside.hasNext (a := a) hv
      simp only [PcmCalls.call, hhas]
      exact ⟨_, rfl, hkept, .inl rfl⟩
  | next =>
      obtain ⟨output, iterator, hnext, hkept, hreturned⟩ :=
        h.inside.next (a := a) hv
      simp only [PcmCalls.call, hnext]
      exact ⟨_, rfl, hkept, hreturned⟩
  | reset => exact ⟨_, rfl, h.inside.reset, .inl rfl⟩

theorem Kept.start (hv : Valid S W) (hs : (pcmCallMachine a S W).start s) :
    s.Kept S W := by
  obtain ⟨newCells, it, hinit, rfl⟩ := hs
  obtain ⟨cells, hlen, rfl⟩ := PCMIterator.init_valid hv hinit
  refine ⟨⟨⟨rfl, rfl, rfl, Int.toNat_natCast _, .inl ?_, Nat.zero_le _,
    Nat.zero_le _⟩, .empty, fun _ => rfl⟩, .inl rfl⟩
  rw [← hlen]
  rfl

theorem Kept.of_reach (hv : Valid S W) {ok : PcmCalls → PcmCall → Prop}
    (hs : (pcmCallMachine a S W).Reach ok s) : s.Kept S W := by
  refine hs.invariant (fun _ hs => .start hv hs)
    fun s call s' h _ hrun => ?_
  obtain ⟨s₁, hcall, hkept⟩ := h.call (a := a) hv call
  exact Option.some.inj (hcall.symm.trans hrun) ▸ hkept

/-- The output of the last call is nothing, or a window that lies wholly in the
cache or in the current input. -/
def OutputInside (s : PcmCalls) : Prop :=
  s.output = .null ∨ (s.output.size = s.iterator.windowSize ∧
    ∃ block, s.output.block = some block ∧
      (block = .cache s.iterator.maxCacheSize ∨ some block = s.current) ∧
      s.output.offset + s.output.size ≤ block.cells)

theorem Kept.outputInside (h : s.Kept S W) (hv : Valid S W) :
    s.OutputInside := by
  refine h.output.imp_right fun ⟨hsize, hin, hplace⟩ => ?_
  have hW := hv.windowSize
  refine ⟨hsize.trans h.inside.bounded.windowSize.symm, ?_⟩
  cases hblock : s.output.block with
  | none =>
      have hnone := hin.null hblock
      omega
  | some block =>
      rw [hblock] at hplace
      refine ⟨block, rfl, hplace.imp_left fun hcache => ?_,
        hin.block block hblock⟩
      rw [h.inside.bounded.maxCacheSize]
      exact Option.some.inj hcache

end PcmCalls

/-- On an iterator that was initialised, calls in any order stay in the cache
and the inputs, and in the range of what is unsigned. -/
theorem reach_inside {a : Abi} {S W : Nat} {s : PcmCalls}
    (hs : (pcmCallMachine a S W).Reach Machine.anyStep s) (hS : 1 ≤ S)
    (hstep : S ≤ W) (hW : 2 ≤ W) (hroom : (W - 2) / S * S + W ≤ 16384) :
    (0 < s.iterator.numCopy →
      s.iterator.nextCachePos + s.iterator.cacheSize + s.iterator.numCopy ≤
        s.iterator.maxCacheSize) ∧
    s.iterator.nextCachePos + s.iterator.cacheSize ≤
      s.iterator.maxCacheSize ∧
    s.OutputInside ∧
    ∀ call, ((pcmCallMachine a S W).step s call).isSome = true := by
  have hv : PCMIterator.Valid S W := ⟨hS, hstep, hW, hroom⟩
  have h : s.Kept S W := .of_reach hv hs
  have htotal := h.inside.bounded.total
  have hmax := h.inside.bounded.maxCacheSize
  refine ⟨fun _ => by omega, by omega, h.outputInside hv, fun call => ?_⟩
  obtain ⟨s', hcall, _⟩ := h.call (a := a) hv call
  exact Option.isSome_of_eq_some hcall

def pcmCallSample (S W : Nat) : PcmCalls :=
  ⟨(PCMIterator.new.init .lp64 S W (some fun _ => 0)).2.positions .null, none,
    .null⟩

/-- The second window of four begins at the second of the five samples that
fill the cache. -/
theorem reach_inside_sample : ∃ s,
    (pcmCallMachine .lp64 1 4).run Machine.anyStep (pcmCallSample 1 4)
      [.setInput 0 2, .hasNext, .setInput 1 3, .next, .next] = some s ∧
      s.output = ⟨some (.cache 6), 1, 4⟩ ∧ s.OutputInside := by
  have hrun : ((pcmCallMachine .lp64 1 4).run Machine.anyStep
      (pcmCallSample 1 4)
      [.setInput 0 2, .hasNext, .setInput 1 3, .next, .next]).map
        (·.output) = some ⟨some (.cache 6), 1, 4⟩ := by decide
  obtain ⟨s, hs, houtput⟩ := Option.map_eq_some_iff.mp hrun
  have hreach : (pcmCallMachine .lp64 1 4).Reach Machine.anyStep s :=
    .of_run (.start ⟨_, _, rfl, rfl⟩) hs
  exact ⟨s, hs, houtput, (reach_inside hreach (by decide) (by decide)
    (by decide) (by decide)).2.2.1⟩

end AiEngine.Ref
