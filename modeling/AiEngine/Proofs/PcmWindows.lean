import AiEngine.Proofs.PcmInit

/-!
# The windows do not depend on the chunks

What the iterator keeps of a stream begins with the next window. Samples that
do not complete a window wait in the cache, which is then filled up to the end
of the last window that begins in it. When those windows are taken, the rest
of the stream is in the last input, unless that input brought less than two
windows share: then a part of it is still in the cache, and is moved to the
front. The copy fails where that part is longer than the way it goes. As long
as it never is, the windows are those of the whole stream.
-/

namespace AiEngine.Ref

open AiEngine.Lib

theorem memcpyCells_eq (dest src : List Int16) {dpos spos destMax count : Nat}
    (hmax : 0 < destMax) (hle : count ≤ destMax) (hsmall : destMax ≤ 16384)
    (hsrc : spos + count ≤ src.length)
    (hdest : dpos + count ≤ dest.length) :
    memcpyCells dest dpos destMax src spos count =
      .ok (dest.take dpos ++ (src.drop spos).take count ++
        dest.drop (dpos + count)) := by
  have hok : memcpyOk (destMax * 2) (count * 2) = true := by
    have hlim : destMax * 2 ≤ memcpyMax := by
      simp only [memcpyMax]
      omega
    simp only [memcpyOk, Bool.and_eq_true, decide_eq_true_eq]
    omega
  obtain ⟨v, hv, hst⟩ := load_store dest src hsrc hdest
  simp only [memcpyCells, hok, hv, if_true, hst]

namespace PCMIterator

variable {a : Abi} {S W : Nat} {it it' : PCMIterator}
variable {xs ys : List Int16} {b c q : Nat}

/-- The cells of the cache, as `Init` computes them. -/
def room (S W : Nat) : Nat := (W - 2) / S * S + W

/-- Sizes that `Init` accepts in exact arithmetic. -/
structure Valid (S W : Nat) : Prop where
  stepSize : 1 ≤ S
  stepLe : S ≤ W
  windowSize : 2 ≤ W
  room : room S W ≤ 16384

theorem Valid.windowLe (hv : Valid S W) : W ≤ 16384 := by
  have hroom := hv.room
  rw [PCMIterator.room] at hroom
  omega

/-- An initialised iterator. -/
structure Sized (S W : Nat) (it : PCMIterator) : Prop where
  initialized : it.isInitialized = true
  stepSize : it.stepSize = S
  windowSize : it.windowSize = W
  maxCacheSize : it.maxCacheSize = room S W
  cells : it.cells.length = room S W

/-- The cache has samples of the stream from place `b` on. The next window
begins at place `q`, and the cache is for the windows that begin before place
`b + c`. -/
structure Cached (S W : Nat) (xs : List Int16) (b c q : Nat)
    (it : PCMIterator) : Prop where
  sized : it.Sized S W
  cells : it.cells.take (it.nextCachePos + it.cacheSize) =
    (xs.drop b).take (it.nextCachePos + it.cacheSize)
  inStream : b + (it.nextCachePos + it.cacheSize) ≤ xs.length
  place : q = b + it.nextCachePos
  round : S ∣ c
  roundPos : S ∣ it.nextCachePos
  inside : it.nextCachePos + S ≤ c
  fits : c + W ≤ room S W + S

/-- The cache waits for more samples than there are. -/
structure Filling (S W : Nat) (xs : List Int16) (b c q : Nat)
    (it : PCMIterator) : Prop extends Cached S W xs b c q it where
  all : b + (it.nextCachePos + it.cacheSize) = xs.length
  left : 0 < it.numCopy
  target : it.nextCachePos + it.cacheSize + it.numCopy + S = c + W
  begun : c < it.nextCachePos + it.cacheSize + S

/-- All samples there are are in the cache. -/
structure Part (S W : Nat) (xs : List Int16) (b c q : Nat)
    (it : PCMIterator) : Prop extends Filling S W xs b c q it where
  short : it.pcmData.length < W
  flag : it.hasNextFlag = decide (W ≤ xs.length - q)

/-- The cache is full. The last input, which began at some place, has what
comes after it, and a rest of the cache can be moved to the front. -/
structure Full (S W : Nat) (xs : List Int16) (b c q : Nat)
    (it : PCMIterator) : Prop extends Cached S W xs b c q it where
  numCopy : it.numCopy = 0
  target : it.nextCachePos + it.cacheSize + S = c + W
  data : ∃ start,
    start + it.numRealCopy = b + (it.nextCachePos + it.cacheSize) ∧
      it.pcmData = xs.drop (max start (b + c))
  small : it.numRealCopy ≤ room S W
  back : W ≤ S + it.numRealCopy + c
  flag : it.hasNextFlag = true

/-- The windows of the cache are taken, and the next one begins in what is
left of it. -/
structure Rest (S W : Nat) (xs : List Int16) (q : Nat)
    (it : PCMIterator) : Prop where
  sized : it.Sized S W
  numCopy : it.numCopy = 0
  pos : 0 < it.cacheSize
  short : it.cacheSize < W
  back : it.cacheSize ≤ it.nextCachePos
  inCells : it.nextCachePos + it.cacheSize ≤ room S W
  cells : (it.cells.drop it.nextCachePos).take it.cacheSize =
    (xs.drop q).take it.cacheSize
  inStream : q + it.cacheSize ≤ xs.length
  data : it.pcmData = xs.drop (q + it.cacheSize)
  flag : it.hasNextFlag = decide (W ≤ it.pcmData.length)

/-- The next window begins in the last input. -/
structure Direct (S W : Nat) (xs : List Int16) (q : Nat)
    (it : PCMIterator) : Prop where
  sized : it.Sized S W
  numCopy : it.numCopy = 0
  cacheSize : it.cacheSize = 0
  inStream : q ≤ xs.length
  data : it.pcmData = xs.drop q
  flag : it.hasNextFlag = decide (W ≤ xs.length - q)

/-- The front of the cache is filled, and waits for the rest of the windows
that begin there. -/
theorem Sized.endMove (h : it.Sized S W) (hv : Valid S W) {size : Nat}
    {cells : List Int16} (hlen : cells.length = room S W)
    (hcells : cells.take size = xs.drop q) (hall : q + size = xs.length)
    (hpos : 0 < size) (hlt : size < W) :
    (it.endMove a cells size).Filling S W xs q ((size - 1) / S * S + S) q ∧
      size ≤ (size - 1) / S * S + S := by
  have hS := hv.stepSize
  have hW := hv.windowLe
  have hmod := a.sizeMod_ge
  have hpred : a.sub size 1 = size - 1 := Abi.sub_of_le hpos (by omega)
  have hslide : (size - 1) / S * S ≤ size - 1 := Nat.div_mul_le_self _ _
  have hfront : (size - 1) / S * S ≤ (W - 2) / S * S :=
    Nat.mul_le_mul_right _ (Nat.div_le_div_right (by omega))
  have hsum : a.sizeT ((size - 1) / S * S + W) = (size - 1) / S * S + W :=
    Abi.sizeT_of_lt (by omega)
  have hcopy : a.sub ((size - 1) / S * S + W) size =
      (size - 1) / S * S + W - size := Abi.sub_of_le (by omega) (by omega)
  have hnum : (it.endMove a cells size).numCopy =
      (size - 1) / S * S + W - size := by
    rw [PCMIterator.endMove]
    simp only [h.stepSize, h.windowSize, hpred, hsum, hcopy]
  refine ⟨⟨⟨{ h with cells := hlen }, ?_, ?_, rfl, ?_, ⟨0, rfl⟩, ?_, ?_⟩,
    ?_, ?_, ?_, ?_⟩, ?_⟩
  · change cells.take (0 + size) = (xs.drop q).take (0 + size)
    rw [Nat.zero_add, hcells, List.take_of_length_le]
    rw [List.length_drop]
    omega
  · change q + (0 + size) ≤ _
    omega
  · exact Nat.dvd_add (Nat.dvd_mul_left _ _) (Nat.dvd_refl _)
  · change 0 + S ≤ _
    omega
  · rw [room]
    omega
  · change q + (0 + size) = _
    omega
  · rw [hnum]
    omega
  · rw [hnum]
    change 0 + size + _ + S = _
    omega
  · change _ < 0 + size + S
    omega
  · have hlt := Nat.lt_div_mul_add (a := size - 1) (b := S) hS
    omega

/-- The cache with samples of an input behind its own. -/
def filled (it : PCMIterator) (ys : List Int16) (n : Nat) : List Int16 :=
  it.cells.take (it.nextCachePos + it.cacheSize) ++ ys.take n ++
    it.cells.drop (it.nextCachePos + it.cacheSize + n)

theorem Filling.le_room (h : it.Filling S W xs b c q) :
    it.nextCachePos + it.cacheSize + it.numCopy ≤ room S W := by
  have htarget := h.target
  have hfits := h.fits
  omega

theorem Filling.length_filled (h : it.Filling S W xs b c q) {n : Nat}
    (hn : n ≤ ys.length) (hcopy : n ≤ it.numCopy) :
    (it.filled ys n).length = room S W := by
  have hroom := h.le_room
  have hcells := h.sized.cells
  simp only [filled, List.length_append, List.length_take, List.length_drop]
  omega

theorem Filling.take_filled (h : it.Filling S W xs b c q) {n : Nat}
    (hn : n ≤ ys.length) :
    (it.filled ys n).take (it.nextCachePos + it.cacheSize + n) =
      ((xs ++ ys).drop b).take (it.nextCachePos + it.cacheSize + n) := by
  have hroom := h.le_room
  have hcells := h.sized.cells
  have hall := h.all
  have hlen : (xs.drop b).length = it.nextCachePos + it.cacheSize := by
    rw [List.length_drop]
    omega
  have hown := h.toCached.cells
  rw [List.take_of_length_le (Nat.le_of_eq hlen)] at hown
  have hfront : (xs.drop b ++ ys.take n).length =
      it.nextCachePos + it.cacheSize + n := by
    rw [List.length_append, hlen, List.length_take]
    omega
  rw [filled, hown, List.take_left' hfront,
    List.drop_append_of_le_length (by omega), List.take_append, hlen,
    Nat.add_sub_cancel_left, List.take_of_length_le (l := xs.drop b)]
  omega

theorem Filling.memcpyCells_eq (h : it.Filling S W xs b c q)
    (hv : Valid S W) {n : Nat} (hn : n ≤ ys.length) (hcopy : n ≤ it.numCopy) :
    memcpyCells it.cells (a.sizeT (it.nextCachePos + it.cacheSize))
      (a.sub it.maxCacheSize.toNat
        (a.sizeT (it.nextCachePos + it.cacheSize))) ys 0 n =
      .ok (it.filled ys n) := by
  have hroom := h.le_room
  have hleft := h.left
  have hsmall := hv.room
  have hmod := a.sizeMod_ge
  have hcells := h.sized.cells
  have hsum : a.sizeT (it.nextCachePos + it.cacheSize) =
      it.nextCachePos + it.cacheSize := Abi.sizeT_of_lt (by omega)
  have hmax : it.maxCacheSize.toNat = room S W := by
    rw [h.sized.maxCacheSize, Int.toNat_natCast]
  rw [hsum, hmax, Abi.sub_of_le (by omega) (by omega),
    AiEngine.Ref.memcpyCells_eq it.cells ys (by omega) (by omega) (by omega)
      (by omega) (by omega), List.drop_zero, filled]

theorem Filling.prepare_full (h : it.Filling S W xs b c q) (hv : Valid S W)
    (henough : it.numCopy ≤ ys.length) (hback : W ≤ S + it.numCopy + c) :
    ∃ it', it.prepare a ys = some (Retcode.success, it') ∧
      it'.Full S W (xs ++ ys) b c q := by
  have hroom := h.le_room
  have hsmall := hv.room
  have hmod := a.sizeMod_ge
  have hwindow := hv.windowLe
  have hstep := hv.stepLe
  have hall := h.all
  have htarget := h.target
  have hinside := h.inside
  have hsum : a.sizeT (it.cacheSize + it.numCopy) =
      it.cacheSize + it.numCopy := Abi.sizeT_of_lt (by omega)
  have hW := h.sized.windowSize
  have hS := h.sized.stepSize
  have hdiff : toInt32 ((it.numCopy : Int) - it.windowSize + it.stepSize) =
      (it.numCopy : Int) - W + S := by
    rw [hW, hS]
    exact toInt32_eq (by omega) (by omega)
  have hcopy := h.memcpyCells_eq (a := a) hv henough (Nat.le_refl _)
  have hcells := h.length_filled henough (Nat.le_refl _)
  have htake := h.take_filled henough
  rw [PCMIterator.prepare, if_pos h.left]
  simp only [if_neg (Nat.not_lt.mpr henough), hcopy, Nat.sub_self, hsum,
    hdiff, if_true]
  rw [endPrepare, if_pos (.inl (show it.windowSize ≤ it.cacheSize + it.numCopy
    by omega))]
  refine ⟨_, rfl, ⟨{ h.sized with cells := hcells }, ?_, ?_, h.place, h.round,
    h.roundPos, h.inside, h.fits⟩, rfl, ?_, ?_,
    Nat.le_trans (Nat.le_add_left _ _) hroom, hback, rfl⟩
  · simpa only [Nat.add_assoc] using htake
  · change b + (it.nextCachePos + (it.cacheSize + it.numCopy)) ≤ _
    rw [List.length_append]
    omega
  · change it.nextCachePos + (it.cacheSize + it.numCopy) + S = _
    omega
  · refine ⟨xs.length, ?_, ?_⟩
    · change xs.length + it.numCopy =
        b + (it.nextCachePos + (it.cacheSize + it.numCopy))
      omega
    · change (if 0 < (it.numCopy : Int) - W + S then
        ys.drop ((it.numCopy : Int) - W + S).toNat else ys) = _
      split
      · rw [show max xs.length (b + c) =
          xs.length + ((it.numCopy : Int) - W + S).toNat by omega,
          ← List.drop_drop, List.drop_left]
      · rw [show max xs.length (b + c) = xs.length by omega, List.drop_left]

theorem Filling.prepare_part (h : it.Filling S W xs b c q) (hv : Valid S W)
    (hless : ys.length < it.numCopy)
    (hflag : it.hasNextFlag = true → W ≤ (xs ++ ys).length - q) :
    ∃ it', it.prepare a ys = some (Retcode.success, it') ∧
      it'.Part S W (xs ++ ys) b c q := by
  have hroom := h.le_room
  have hsmall := hv.room
  have hmod := a.sizeMod_ge
  have hall := h.all
  have htarget := h.target
  have hinside := h.inside
  have hbegun := h.begun
  have hplace := h.place
  have hW := h.sized.windowSize
  have hpos := hv.windowSize
  have hsum : a.sizeT (it.cacheSize + ys.length) =
      it.cacheSize + ys.length := Abi.sizeT_of_lt (by omega)
  have hle := Nat.le_of_lt hless
  have hcopy := h.memcpyCells_eq (a := a) hv (Nat.le_refl ys.length) hle
  have hcells := h.length_filled (Nat.le_refl ys.length) hle
  have htake := h.take_filled (Nat.le_refl ys.length)
  have hn : (xs ++ ys).length - q = it.cacheSize + ys.length := by
    rw [List.length_append]
    omega
  have hnil : ([] : List Int16).length < W := by
    rw [List.length_nil]
    omega
  rw [hn] at hflag
  have hfilling (flag : Bool) : Filling S W (xs ++ ys) b c q
      { it with
        numRealCopy := ys.length
        cells := it.filled ys ys.length
        cacheSize := it.cacheSize + ys.length
        numCopy := it.numCopy - ys.length
        pcmData := []
        hasNextFlag := flag } := by
    refine ⟨⟨{ h.sized with cells := hcells }, ?_, ?_, hplace, h.round,
      h.roundPos, hinside, h.fits⟩, ?_, Nat.sub_pos_of_lt hless, ?_, ?_⟩
    · simpa only [Nat.add_assoc] using htake
    · change b + (it.nextCachePos + (it.cacheSize + ys.length)) ≤ _
      rw [List.length_append]
      omega
    · change b + (it.nextCachePos + (it.cacheSize + ys.length)) = _
      rw [List.length_append]
      omega
    · change it.nextCachePos + (it.cacheSize + ys.length) +
        (it.numCopy - ys.length) + S = _
      omega
    · change c < it.nextCachePos + (it.cacheSize + ys.length) + S
      omega
  rw [PCMIterator.prepare, if_pos h.left]
  simp only [if_pos hless, hcopy, hsum,
    if_neg (Nat.ne_of_gt (Nat.sub_pos_of_lt hless)), endPrepare]
  split
  · next hwindow =>
      refine ⟨_, rfl, hfilling true, hnil, ?_⟩
      have hle : W ≤ it.cacheSize + ys.length := by
        rcases hwindow with hwindow | hwindow
        · exact hW ▸ hwindow
        · exact absurd (hW ▸ hwindow) (by simp; omega)
      exact (decide_eq_true (hn.symm ▸ hle)).symm
  · next hwindow =>
      have hlt : ¬ W ≤ it.cacheSize + ys.length :=
        fun hle => hwindow (.inl (hW.symm ▸ hle))
      have hoff : it.hasNextFlag = false :=
        Bool.eq_false_iff.mpr fun hon => hlt (hflag hon)
      rw [if_neg fun hzero => by
        have : it.cacheSize + ys.length = 0 := hzero.1
        omega]
      refine ⟨_, rfl, hfilling _, hnil, ?_⟩
      exact hoff.trans (decide_eq_false (hn.symm ▸ hlt)).symm

/-! ## `HasNext`

The answer comes from two sizes. Where the cache has no window left its rest
is moved to its front, and where the input has none its rest is moved to the
cache. -/

/-- What the loop finds: a window to take, or none. -/
def Ready (S W : Nat) (xs : List Int16) (q : Nat) (it : PCMIterator) : Prop :=
  (∃ b c, it.Part S W xs b c q) ∨ (∃ b c, it.Full S W xs b c q) ∨
    it.Direct S W xs q ∧ (W ≤ xs.length - q ∨ q = xs.length)

/-- Any state that a call goes through. -/
def Phase (S W : Nat) (xs : List Int16) (q : Nat) (it : PCMIterator) :
    Prop :=
  it.Ready S W xs q ∨ it.Rest S W xs q ∨ it.Direct S W xs q

theorem Full.le_cacheSize (h : it.Full S W xs b c q) :
    W ≤ it.cacheSize := by
  have htarget := h.target
  have hinside := h.inside
  omega

theorem Filling.cacheSize_pos (h : it.Filling S W xs b c q) :
    0 < it.cacheSize := by
  have hbegun := h.begun
  have hinside := h.inside
  omega

/-- A state with a window to take, or with none and nothing to move. -/
theorem Ready.hasNext (h : it.Ready S W xs q) (hv : Valid S W) :
    it.hasNext a = some (decide (W ≤ xs.length - q), it) := by
  have hpos := hv.windowSize
  rcases h with ⟨b, c, h⟩ | ⟨b, c, h⟩ | ⟨h, hmore⟩
  · have hleft := h.left
    have hsome := h.toFilling.cacheSize_pos
    rw [PCMIterator.hasNext, if_neg (by omega), if_neg (by omega), h.flag]
  · have hsome := h.le_cacheSize
    have hW := h.sized.windowSize
    have hplace := h.place
    have hin := h.inStream
    rw [PCMIterator.hasNext, if_neg (by omega), if_neg (by omega), h.flag,
      decide_eq_true (by omega)]
  · have hcache := h.cacheSize
    have hW := h.sized.windowSize
    have hlen : it.pcmData.length = xs.length - q := by
      rw [h.data, List.length_drop]
    rw [PCMIterator.hasNext, if_neg (by omega), if_neg (by omega), h.flag]

theorem memcpyCells_front (h : it.Sized S W) (hv : Valid S W)
    (src : List Int16) {spos n : Nat} (hn : n ≤ room S W)
    (hsrc : spos + n ≤ src.length) :
    memcpyCells it.cells 0 it.maxCacheSize.toNat src spos n =
      .ok ((src.drop spos).take n ++ it.cells.drop n) := by
  have hsmall := hv.room
  have hcells := h.cells
  have hwindow := hv.windowSize
  have hpos : 0 < room S W := by
    rw [room]
    omega
  have hmax : it.maxCacheSize.toNat = room S W := by
    rw [h.maxCacheSize, Int.toNat_natCast]
  rw [hmax, AiEngine.Ref.memcpyCells_eq it.cells src hpos hn hsmall hsrc
    (by omega), List.take_zero, List.nil_append, Nat.zero_add]

theorem Filling.setData (h : it.Filling S W xs b c q) (data : List Int16) :
    ({ it with pcmData := data } : PCMIterator).Filling S W xs b c q :=
  { toCached := { h.toCached with sized := { h.sized with } }
    all := h.all
    left := h.left
    target := h.target
    begun := h.begun }

theorem length_front (h : it.Sized S W) (src : List Int16) {spos n : Nat}
    (hn : n ≤ room S W) (hsrc : spos + n ≤ src.length) :
    ((src.drop spos).take n ++ it.cells.drop n).length = room S W := by
  have hcells := h.cells
  rw [List.length_append, List.length_take, List.length_drop,
    List.length_drop]
  omega

theorem le_room (S W : Nat) : W ≤ room S W := Nat.le_add_left _ _

theorem Direct.moveDataToCache (h : it.Direct S W xs q) (hv : Valid S W)
    (hmore : q < xs.length) (hless : xs.length - q < W) :
    ∃ cells, it.moveDataToCache a it.pcmData =
        .ok (it.endMove a cells it.pcmData.length) ∧
      (it.endMove a cells it.pcmData.length).Filling S W xs q
        ((it.pcmData.length - 1) / S * S + S) q := by
  have hroom := le_room S W
  have hlen : it.pcmData.length = xs.length - q := by
    rw [h.data, List.length_drop]
  have hcopy := memcpyCells_front h.sized hv it.pcmData
    (show it.pcmData.length ≤ room S W by omega)
    (show 0 + it.pcmData.length ≤ it.pcmData.length by omega)
  have hcells := length_front h.sized it.pcmData
    (show it.pcmData.length ≤ room S W by omega)
    (show 0 + it.pcmData.length ≤ it.pcmData.length by omega)
  refine ⟨_, by rw [PCMIterator.moveDataToCache, hcopy], ?_⟩
  refine (h.sized.endMove hv hcells ?_ (by omega) (by omega) (by omega)).1
  rw [List.drop_zero, List.take_length, List.take_left, h.data]

theorem Direct.hasNext (h : it.Direct S W xs q) (hv : Valid S W) :
    ∃ it', it.hasNext a = some (decide (W ≤ xs.length - q), it') ∧
      it'.Ready S W xs q := by
  have hin := h.inStream
  by_cases hmore : W ≤ xs.length - q ∨ q = xs.length
  · have hready : it.Ready S W xs q := .inr (.inr ⟨h, hmore⟩)
    exact ⟨it, hready.hasNext hv, hready⟩
  · have hlen : it.pcmData.length = xs.length - q := by
      rw [h.data, List.length_drop]
    have hW := h.sized.windowSize
    have hcache := h.cacheSize
    have hpos := hv.windowSize
    obtain ⟨cells, hmove, hfilling⟩ :=
      h.moveDataToCache (a := a) hv (by omega) (by omega)
    rw [PCMIterator.hasNext, if_neg (by omega), if_pos (by omega), hmove]
    refine ⟨{ it.endMove a cells it.pcmData.length with pcmData := [] }, ?_,
      .inl ⟨_, _, ⟨hfilling.setData [], ?_, h.flag⟩⟩⟩
    · exact congrArg (fun flag => some (flag, _)) h.flag
    · change ([] : List Int16).length < W
      rw [List.length_nil]
      omega

/-- What is left in the cache goes to the front, and is filled up from the
input. -/
theorem Rest.hasNext (h : it.Rest S W xs q) (hv : Valid S W) :
    ∃ it', it.hasNext a = some (decide (W ≤ xs.length - q), it') ∧
      it'.Ready S W xs q := by
  have hroom := le_room S W
  have hpos := h.pos
  have hshort := h.short
  have hback := h.back
  have hin := h.inStream
  have hinCells := h.inCells
  have hW := h.sized.windowSize
  have hlen := h.sized.cells
  have hcopy := memcpyCells_front h.sized hv it.cells
    (show it.cacheSize ≤ room S W by omega)
    (show it.nextCachePos + it.cacheSize ≤ it.cells.length by omega)
  have hcells := length_front h.sized it.cells
    (show it.cacheSize ≤ room S W by omega)
    (show it.nextCachePos + it.cacheSize ≤ it.cells.length by omega)
  have hfront : ((it.cells.drop it.nextCachePos).take it.cacheSize).length =
      it.cacheSize := by
    rw [List.length_take, List.length_drop]
    omega
  have hheld : ((it.cells.drop it.nextCachePos).take it.cacheSize ++
      it.cells.drop it.cacheSize).take it.cacheSize =
        (xs.take (q + it.cacheSize)).drop q := by
    rw [List.take_left' hfront, h.cells, List.drop_take,
      Nat.add_sub_cancel_left]
  have hall : q + it.cacheSize = (xs.take (q + it.cacheSize)).length := by
    rw [List.length_take]
    omega
  obtain ⟨hfilling, hceil⟩ :=
    h.sized.endMove (a := a) hv hcells hheld hall hpos hshort
  have hmove : it.moveCacheToFront a = .ok (it.endMove a
      ((it.cells.drop it.nextCachePos).take it.cacheSize ++
        it.cells.drop it.cacheSize) it.cacheSize) := by
    rw [PCMIterator.moveCacheToFront, if_neg (by omega), hcopy]
  have hjoin : xs.take (q + it.cacheSize) ++ it.pcmData = xs := by
    rw [h.data, List.take_append_drop]
  have hdata : it.pcmData.length = xs.length - (q + it.cacheSize) := by
    rw [h.data, List.length_drop]
  have hzero := h.numCopy
  have htarget := hfilling.target
  have hbegun := hfilling.begun
  have hstep := hv.stepSize
  rw [PCMIterator.hasNext, if_pos (by omega), hmove]
  rcases Nat.lt_or_ge it.pcmData.length
    (it.endMove a _ it.cacheSize).numCopy with hless | henough
  · obtain ⟨it', hrun, hpart⟩ := hfilling.prepare_part (a := a) hv hless
      fun hon => by
        have hmany := of_decide_eq_true (h.flag.symm.trans hon)
        rw [hjoin]
        omega
    rw [hjoin] at hpart
    exact ⟨it', by rw [← hpart.flag]; exact congrArg (Option.map _) hrun,
      .inl ⟨_, _, hpart⟩⟩
  · obtain ⟨it', hrun, hfull⟩ := hfilling.prepare_full (a := a) hv henough
      (by
        change 0 + it.cacheSize + _ + S = _ at htarget
        omega)
    rw [hjoin] at hfull
    have hmany : W ≤ xs.length - q := by
      have hle := hfull.le_cacheSize
      have hplace := hfull.place
      have hin := hfull.inStream
      omega
    exact ⟨it', by
        rw [decide_eq_true hmany, ← hfull.flag]
        exact congrArg (Option.map _) hrun,
      .inr (.inl ⟨_, _, hfull⟩)⟩

/-! ## `Next`

A window is taken from the cache as long as it has one, and from the input
otherwise. -/

/-- The window at the next position of the cache is that of the stream. -/
theorem Cached.load_eq (h : it.Cached S W xs b c q) (hW : W ≤ it.cacheSize)
    (hroom : it.nextCachePos + it.cacheSize ≤ room S W) :
    ∃ v : Vector Int16 W, load it.cells it.nextCachePos W = some v ∧
      v.toList = (xs.drop q).take W := by
  have hcells := h.sized.cells
  obtain ⟨v, hv⟩ := load_isSome
    (show it.nextCachePos + W ≤ it.cells.length by omega)
  refine ⟨v, hv, ?_⟩
  rw [(load_spec hv).2, Window.take_drop_of_take_eq h.cells (by omega),
    List.drop_drop, ← h.place]

/-- After a window, the flag says whether there is another one. -/
theorem endNext_eq (hon : it.hasNextFlag = true) :
    it.endNext = { it with
      hasNextFlag := decide (it.windowSize ≤ it.cacheSize ∨
        it.windowSize ≤ it.pcmData.length) } := by
  rw [endNext]
  split
  · rw [decide_eq_false (by omega)]
  · rw [decide_eq_true (by omega), ← hon]

/-- The cache after a window is taken from it. -/
def advanced (it : PCMIterator) (cacheSize : Nat) : PCMIterator :=
  { it with nextCachePos := it.nextCachePos + it.stepSize, cacheSize }

theorem endNext_advanced (hon : it.hasNextFlag = true) (n : Nat) :
    (it.advanced n).endNext = { it.advanced n with
      hasNextFlag := decide (it.windowSize ≤ n ∨
        it.windowSize ≤ it.pcmData.length) } :=
  endNext_eq hon

theorem takeCached_eq (h : it.Cached S W xs b c q) (hv : Valid S W)
    (hW : W ≤ it.cacheSize)
    (hroom : it.nextCachePos + it.cacheSize ≤ room S W)
    (hsmall : it.numCopy = 0 → it.numRealCopy ≤ room S W) :
    it.takeCached a = some ((xs.drop q).take W,
      it.advanced (if it.numCopy = 0 ∧ it.cacheSize - S < W then
        W - S - it.numRealCopy else it.cacheSize - S)) := by
  have hmod := a.sizeMod_ge
  have hmax := hv.room
  have hstep := hv.stepLe
  obtain ⟨v, hload, hcells⟩ := h.load_eq hW hroom
  obtain rfl := h.sized.stepSize
  obtain rfl := h.sized.windowSize
  have hsum : a.sizeT (it.nextCachePos + it.stepSize) =
      it.nextCachePos + it.stepSize := Abi.sizeT_of_lt (by omega)
  rw [takeCached, hload]
  simp only [hsum, hcells]
  split
  · next hlast =>
      have hreal := hsmall hlast.1
      have hwindow := hv.windowLe
      have hdiff :
          toInt32 ((it.windowSize : Int) - it.stepSize - it.numRealCopy) =
            (it.windowSize : Int) - it.stepSize - it.numRealCopy :=
        toInt32_eq (by omega) (by omega)
      have hrest : (if 0 < (it.windowSize : Int) - it.stepSize -
          it.numRealCopy then ((it.windowSize : Int) - it.stepSize -
            it.numRealCopy).toNat else 0) =
          it.windowSize - it.stepSize - it.numRealCopy := by
        split <;> omega
      rw [hdiff, hrest, advanced]
  · rfl

theorem add_step_le {n p : Nat} (hn : S ∣ n) (hp : S ∣ p)
    (hlt : p + S < n) : p + S + S ≤ n := by
  have hdvd : S ∣ n - (p + S) :=
    Nat.dvd_sub hn (Nat.dvd_add hp (Nat.dvd_refl S))
  have hle := Nat.le_of_dvd (by omega) hdvd
  omega

/-- The next window of a cache that waits for more is taken. -/
theorem Part.takeCached (h : it.Part S W xs b c q) (hv : Valid S W)
    (hmore : W ≤ xs.length - q) :
    ∃ it', it.takeCached a = some ((xs.drop q).take W, it') ∧
      it'.endNext.Part S W xs b c (q + S) := by
  have hplace := h.place
  have hall := h.all
  have hleft := h.left
  have htarget := h.target
  have hbegun := h.begun
  have hroom := h.toFilling.le_room
  have hstep := hv.stepLe
  have hS := hv.stepSize
  have hshort := h.short
  have hsize := h.sized.stepSize
  have hwindow := h.sized.windowSize
  -- both are multiples of the step, so that another window begins before `c`
  have hinside : it.nextCachePos + S + S ≤ c := by
    have hlt : it.nextCachePos + S < c := by omega
    exact add_step_le h.round h.roundPos hlt
  have htake := takeCached_eq (a := a) h.toCached hv (by omega) (by omega)
    fun hzero => absurd hzero (Nat.ne_of_gt hleft)
  rw [if_neg fun hzero => absurd hzero.1 (Nat.ne_of_gt hleft)] at htake
  refine ⟨_, htake, ?_⟩
  rw [endNext_advanced (h.flag.trans (decide_eq_true hmore)), advanced,
    hsize]
  refine ⟨⟨⟨{ h.sized with stepSize := rfl }, ?_, ?_, ?_, h.round, ?_,
    hinside, h.fits⟩, ?_, hleft, ?_, ?_⟩, hshort, ?_⟩
  · change it.cells.take (it.nextCachePos + S + (it.cacheSize - S)) = _
    rw [show it.nextCachePos + S + (it.cacheSize - S) =
      it.nextCachePos + it.cacheSize by omega]
    exact h.cells
  · change b + (it.nextCachePos + S + (it.cacheSize - S)) ≤ _
    omega
  · change q + S = b + (it.nextCachePos + S)
    omega
  · exact Nat.dvd_add h.roundPos (Nat.dvd_refl S)
  · change b + (it.nextCachePos + S + (it.cacheSize - S)) = _
    omega
  · change it.nextCachePos + S + (it.cacheSize - S) + it.numCopy + S = _
    omega
  · change c < it.nextCachePos + S + (it.cacheSize - S) + S
    omega
  · change decide (it.windowSize ≤ it.cacheSize - S ∨ _) = _
    refine decide_eq_decide.mpr ?_
    omega

/-- A window of a full cache is taken that is not the last one. -/
theorem Full.takeCached (h : it.Full S W xs b c q) (hv : Valid S W)
    (hinside : it.nextCachePos + S + S ≤ c) :
    ∃ it', it.takeCached a = some ((xs.drop q).take W, it') ∧
      it'.endNext.Full S W xs b c (q + S) := by
  have hplace := h.place
  have hin := h.inStream
  have htarget := h.target
  have hfits := h.fits
  have hsize := h.sized.stepSize
  have hwindow := h.sized.windowSize
  have htake := takeCached_eq (a := a) h.toCached hv h.le_cacheSize
    (by omega) fun _ => h.small
  rw [if_neg (by omega)] at htake
  refine ⟨_, htake, ?_⟩
  have hheld : it.nextCachePos + S + (it.cacheSize - S) =
      it.nextCachePos + it.cacheSize := by omega
  rw [endNext_advanced h.flag, advanced, hsize]
  refine ⟨⟨{ h.sized with stepSize := rfl }, ?_, ?_, ?_, h.round, ?_,
    hinside, h.fits⟩, h.numCopy, ?_, ?_, h.small, h.back, ?_⟩
  · change it.cells.take (it.nextCachePos + S + (it.cacheSize - S)) = _
    rw [hheld]
    exact h.cells
  · change b + (it.nextCachePos + S + (it.cacheSize - S)) ≤ _
    omega
  · change q + S = b + (it.nextCachePos + S)
    omega
  · exact Nat.dvd_add h.roundPos (Nat.dvd_refl S)
  · change it.nextCachePos + S + (it.cacheSize - S) + S = _
    omega
  · obtain ⟨start, hstart, hdata⟩ := h.data
    refine ⟨start, ?_, hdata⟩
    change _ = b + (it.nextCachePos + S + (it.cacheSize - S))
    rw [hheld]
    exact hstart
  · refine decide_eq_true (.inl ?_)
    omega

theorem Full.takeCached_last (h : it.Full S W xs b c q) (hv : Valid S W)
    (hinside : it.nextCachePos + S = c) :
    ∃ it', it.takeCached a = some ((xs.drop q).take W, it') ∧
      (it'.endNext.Rest S W xs (q + S) ∨
        it'.endNext.Direct S W xs (q + S)) := by
  have hplace := h.place
  have hin := h.inStream
  have htarget := h.target
  have hfits := h.fits
  have hstep := hv.stepLe
  have hS := hv.stepSize
  have hback := h.back
  have hsize := h.sized.stepSize
  have hwindow := h.sized.windowSize
  obtain ⟨start, hstart, hdata⟩ := h.data
  have htake := takeCached_eq (a := a) h.toCached hv h.le_cacheSize
    (by omega) fun _ => h.small
  rw [if_pos ⟨h.numCopy, by omega⟩] at htake
  refine ⟨_, htake, ?_⟩
  rw [endNext_advanced h.flag, advanced, hsize, hinside]
  rcases Nat.eq_zero_or_pos (W - S - it.numRealCopy) with hnone | hrest
  · right
    have hdata' : it.pcmData = xs.drop (q + S) := by
      rw [hdata]
      congr 1
      omega
    refine ⟨{ h.sized with stepSize := rfl }, h.numCopy, hnone, by omega,
      hdata', ?_⟩
    refine decide_eq_decide.mpr ?_
    rw [hdata', List.length_drop]
    omega
  · left
    have hdata' : it.pcmData =
        xs.drop (q + S + (W - S - it.numRealCopy)) := by
      rw [hdata]
      congr 1
      omega
    refine ⟨{ h.sized with stepSize := rfl }, h.numCopy, hrest, ?_, ?_, ?_,
      ?_, ?_, hdata', ?_⟩
    · change W - S - it.numRealCopy < W
      omega
    · change W - S - it.numRealCopy ≤ c
      omega
    · change c + (W - S - it.numRealCopy) ≤ room S W
      omega
    · change (it.cells.drop c).take (W - S - it.numRealCopy) =
        (xs.drop (q + S)).take (W - S - it.numRealCopy)
      rw [Window.take_drop_of_take_eq h.cells (by omega), List.drop_drop]
      congr 2
      omega
    · change q + S + (W - S - it.numRealCopy) ≤ xs.length
      omega
    · refine decide_eq_decide.mpr ?_
      change it.windowSize ≤ W - S - it.numRealCopy ∨
        it.windowSize ≤ it.pcmData.length ↔ W ≤ it.pcmData.length
      omega

theorem Direct.endNext (h : it.Direct S W xs q) (hv : Valid S W)
    (hmore : W ≤ xs.length - q) :
    ({ it with pcmData := it.pcmData.drop it.stepSize } :
      PCMIterator).endNext.Direct S W xs (q + S) := by
  have hsize := h.sized.stepSize
  have hwindow := h.sized.windowSize
  have hstep := hv.stepLe
  have hcache := h.cacheSize
  have hpos := hv.windowSize
  have hdata : it.pcmData.drop it.stepSize = xs.drop (q + S) := by
    rw [h.data, hsize, List.drop_drop]
  have hon : ({ it with pcmData := it.pcmData.drop it.stepSize } :
      PCMIterator).hasNextFlag = true :=
    h.flag.trans (decide_eq_true hmore)
  rw [endNext_eq hon]
  refine ⟨{ h.sized with }, h.numCopy, hcache, by omega, hdata, ?_⟩
  refine decide_eq_decide.mpr ?_
  change it.windowSize ≤ it.cacheSize ∨
    it.windowSize ≤ (it.pcmData.drop it.stepSize).length ↔ _
  rw [hdata, List.length_drop]
  omega

/-- `Next` hands out the next window of the stream. -/
theorem Ready.next (h : it.Ready S W xs q) (hv : Valid S W)
    (hmore : W ≤ xs.length - q) :
    ∃ it', it.next a = some ((xs.drop q).take W, it') ∧
      it'.Phase S W xs (q + S) := by
  have hhas := h.hasNext (a := a) hv
  rw [decide_eq_true hmore] at hhas
  rw [PCMIterator.next, hhas]
  rcases h with ⟨b, c, h⟩ | ⟨b, c, h⟩ | ⟨h, _⟩
  · have hplace := h.place
    have hall := h.all
    have hwindow := h.sized.windowSize
    obtain ⟨it', htake, hpart⟩ := h.takeCached (a := a) hv hmore
    refine ⟨it'.endNext, ?_, .inl (.inl ⟨b, c, hpart⟩)⟩
    simp only [if_pos (show it.windowSize ≤ it.cacheSize by omega), htake]
  · have hwindow := h.sized.windowSize
    have hfull := h.le_cacheSize
    have hcached : it.windowSize ≤ it.cacheSize := by omega
    by_cases hlast : it.nextCachePos + S = c
    · obtain ⟨it', htake, hend⟩ := h.takeCached_last (a := a) hv hlast
      refine ⟨it'.endNext, ?_, .inr hend⟩
      simp only [if_pos hcached, htake]
    · have hinside : it.nextCachePos + S + S ≤ c := by
        have hle := h.inside
        exact add_step_le h.round h.roundPos (by omega)
      obtain ⟨it', htake, hfull'⟩ := h.takeCached (a := a) hv hinside
      refine ⟨it'.endNext, ?_, .inl (.inr (.inl ⟨b, c, hfull'⟩))⟩
      simp only [if_pos hcached, htake]
  · have hwindow := h.sized.windowSize
    have hcache := h.cacheSize
    have hpos := hv.windowSize
    have hlen : it.pcmData.length = xs.length - q := by
      rw [h.data, List.length_drop]
    refine ⟨_, ?_, .inr (.inr (h.endNext hv hmore))⟩
    simp only [if_neg (show ¬ it.windowSize ≤ it.cacheSize by omega),
      if_pos (show it.windowSize ≤ it.pcmData.length by omega)]
    rw [h.data, hwindow]

theorem Phase.hasNext (h : it.Phase S W xs q) (hv : Valid S W) :
    ∃ it', it.hasNext a = some (decide (W ≤ xs.length - q), it') ∧
      it'.Ready S W xs q := by
  rcases h with h | h | h
  · exact ⟨it, h.hasNext hv, h⟩
  · exact h.hasNext hv
  · exact h.hasNext hv

/-- The loop takes the windows that are complete. -/
theorem Phase.takeAll (hv : Valid S W) (rounds : Nat) :
    ∀ {it : PCMIterator} {j : Nat}, it.Phase S W xs (j * S) →
      j ≤ Window.count S W xs.length →
      xs.length + 1 - (j * S + W) < rounds →
      ∃ ws it', it.takeAll a rounds = some (ws, it') ∧
        (List.range j).map (Window.nth S W xs) ++ ws = Window.all S W xs ∧
        it'.Ready S W xs (Window.count S W xs.length * S) := by
  have hS := hv.stepSize
  induction rounds with
  | zero => exact fun _ _ hrounds => absurd hrounds (Nat.not_lt_zero _)
  | succ rounds ih =>
      intro it j h hj hrounds
      obtain ⟨it₁, hhas, hready⟩ := h.hasNext (a := a) hv
      rw [PCMIterator.takeAll, hhas]
      by_cases hmore : W ≤ xs.length - j * S
      · have hnext : j < Window.count S W xs.length := by
          rw [Window.lt_count hS]
          have hpos := hv.windowSize
          omega
        have hfit := (Window.lt_count hS).mp hnext
        have hmul : (j + 1) * S = j * S + S := Nat.succ_mul j S
        obtain ⟨it₂, htake, hphase⟩ := hready.next (a := a) hv hmore
        rw [← hmul] at hphase
        obtain ⟨ws, it₃, hrest, hall, hidle⟩ := ih hphase hnext (by omega)
        rw [List.range_succ, List.map_append, List.append_assoc] at hall
        simp only [decide_eq_true hmore, htake, hrest]
        exact ⟨_, it₃, rfl, hall, hidle⟩
      · have hlast : j = Window.count S W xs.length := by
          refine Nat.le_antisymm hj (Nat.le_of_not_lt fun hlt => hmore ?_)
          have hfit := (Window.lt_count hS).mp hlt
          omega
        simp only [decide_eq_false hmore]
        exact ⟨[], it₁, rfl, by rw [List.append_nil, hlast, Window.all],
          hlast ▸ hready⟩

/-- If the input brings all that the cache waits for, what is left of the
cache when its windows are taken is not longer than the way it goes. -/
def RestFits (it : PCMIterator) (n : Nat) : Prop :=
  0 < it.numCopy → it.numCopy ≤ n →
    (it.windowSize : Int) - it.stepSize - it.numCopy ≤
      it.nextCachePos + it.cacheSize + it.numCopy + it.stepSize -
        it.windowSize

instance (n : Nat) : Decidable (it.RestFits n) :=
  inferInstanceAs (Decidable (_ → _ → _))

theorem Ready.setInput (h : it.Ready S W xs q) (hv : Valid S W)
    (hless : ¬ W ≤ xs.length - q) (hys : 0 < ys.length)
    (hfits : it.RestFits ys.length) :
    ∃ it', it.setInput a ys = some (Retcode.success, it') ∧
      it'.Phase S W (xs ++ ys) q := by
  have hhas := h.hasNext (a := a) hv
  rw [decide_eq_false hless] at hhas
  rcases h with ⟨b, c, h⟩ | ⟨b, c, h⟩ | ⟨h, hend⟩
  · rw [PCMIterator.setInput, if_neg (not_not.mpr h.sized.initialized), hhas]
    simp only [if_neg (Nat.ne_of_gt hys)]
    rcases Nat.lt_or_ge ys.length it.numCopy with hpart | henough
    · obtain ⟨it', hrun, hpart⟩ := h.toFilling.prepare_part (a := a) hv hpart
        fun hon => absurd (of_decide_eq_true (h.flag.symm.trans hon)) hless
      exact ⟨it', hrun, .inl (.inl ⟨b, c, hpart⟩)⟩
    · have hback := hfits h.left henough
      have htarget := h.target
      have hsize := h.sized.stepSize
      have hwindow := h.sized.windowSize
      obtain ⟨it', hrun, hfull⟩ := h.toFilling.prepare_full (a := a) hv
        henough (by omega)
      exact ⟨it', hrun, .inl (.inr (.inl ⟨b, c, hfull⟩))⟩
  · have hfull := h.le_cacheSize
    have hplace := h.place
    have hin := h.inStream
    omega
  · have hq : q = xs.length := hend.resolve_left hless
    have hpos := hv.windowSize
    have hcache := h.cacheSize
    have hwindow := h.sized.windowSize
    have hnew : (xs ++ ys).length - q = ys.length := by
      rw [List.length_append]
      omega
    have hdata : ys = (xs ++ ys).drop q := by rw [hq, List.drop_left]
    have hin : q ≤ (xs ++ ys).length := by
      rw [List.length_append]
      omega
    rw [PCMIterator.setInput, if_neg (not_not.mpr h.sized.initialized), hhas]
    simp only [if_neg (Nat.ne_of_gt hys)]
    rw [prepare, if_neg (by rw [h.numCopy]; omega), endPrepare]
    by_cases hmore : W ≤ ys.length
    · rw [if_pos (.inr (show it.windowSize ≤ ys.length by omega))]
      refine ⟨_, rfl, .inr (.inr ⟨{ h.sized with }, h.numCopy, hcache, hin,
        hdata, ?_⟩)⟩
      exact (decide_eq_true (hnew.symm ▸ hmore)).symm
    · have hdirect : ({ it with numRealCopy := 0, pcmData := ys } :
          PCMIterator).Direct S W (xs ++ ys) q := by
        refine ⟨{ h.sized with }, h.numCopy, hcache, hin, hdata, ?_⟩
        rw [hnew, decide_eq_false hmore]
        exact h.flag.trans (decide_eq_false hless)
      obtain ⟨cells, hmove, hfilling⟩ := hdirect.moveDataToCache (a := a) hv
        (by rw [List.length_append]; omega) (by omega)
      have hno : ¬ (it.windowSize ≤ it.cacheSize ∨
          it.windowSize ≤ ys.length) := by omega
      have hshort : it.cacheSize = 0 ∧ 0 < ys.length ∧
          ys.length < it.windowSize := by omega
      rw [if_neg hno, if_pos hshort, hmove]
      exact ⟨_, rfl, .inl (.inl ⟨_, _, hfilling,
        show ys.length < W by omega, hdirect.flag⟩)⟩

/-- An `Init` of sizes it accepts that succeeds allocates what they need. -/
theorem init_valid (hv : Valid S W) {newCells : Option (Nat → Int16)}
    (hinit : new.init a S W newCells = (Retcode.success, it)) :
    ∃ cells, cells.length = room S W ∧ it = { new with
      stepSize := S
      windowSize := W
      maxCacheSize := room S W
      cells
      isInitialized := true } := by
  have hmax : (W - 2) / S * S + W ≤ 16384 := hv.room
  have hwindow := hv.windowLe
  have hmod := a.sizeMod_ge
  have hkept : toInt32 (exactCacheSize S W) = room S W := by
    rw [exactCacheSize_of_two_le hv.windowSize]
    exact toInt32_eq (by omega) (by omega)
  rw [init_eq rfl hv.stepSize hv.stepLe (by omega), hkept] at hinit
  have hsuccess := endInit_success_iff.mp (congrArg Prod.fst hinit)
  obtain ⟨newCells, rfl⟩ := Option.isSome_iff_exists.mp hsuccess.2
  have hlimit : ¬ pcmMaxCacheSize < (room S W : Int) :=
    Int.not_lt.mpr hsuccess.1.2
  have hpos : ¬ (room S W : Int) < 0 := Int.not_lt.mpr hsuccess.1.1
  rw [endInit, if_neg hlimit, if_neg hpos] at hinit
  refine ⟨_, ?_, (Prod.mk.inj hinit).2.symm⟩
  rw [List.length_map, List.length_range, Int.toNat_natCast]

/-- `Init` leaves an iterator that waits for a stream to begin. -/
theorem init_direct (hv : Valid S W) {newCells : Option (Nat → Int16)}
    (hinit : new.init a S W newCells = (Retcode.success, it)) :
    it.Direct S W [] 0 := by
  have hW := hv.windowSize
  obtain ⟨cells, hlen, rfl⟩ := init_valid hv hinit
  refine ⟨⟨rfl, rfl, rfl, rfl, hlen⟩, rfl, rfl, Nat.le_refl _, rfl, ?_⟩
  exact (decide_eq_false (by simp; omega)).symm

end PCMIterator

namespace PcmRun

variable {a : Abi} {S W : Nat} {s : PcmRun} {input : List Int16}

/-- The condition on a step. -/
def restFits (s : PcmRun) (input : List Int16) : Prop :=
  s.iterator.RestFits input.length

instance (s : PcmRun) (input : List Int16) : Decidable (s.restFits input) :=
  inferInstanceAs (Decidable (s.iterator.RestFits _))

/-- The windows so far are those of the samples so far, and the iterator
waits. -/
structure Kept (S W : Nat) (s : PcmRun) : Prop where
  failed : s.failed = false
  windows : s.windows = Window.all S W s.samples
  ready : s.iterator.Ready S W s.samples
    (Window.count S W s.samples.length * S)

theorem Kept.give (h : s.Kept S W) (hv : PCMIterator.Valid S W)
    (hinput : 0 < input.length) (hfits : s.restFits input) :
    (s.give a input).Kept S W := by
  have hS := hv.stepSize
  have hnone : ¬ Window.count S W s.samples.length * S + W ≤
      s.samples.length := fun hle =>
    Nat.lt_irrefl _ ((Window.lt_count hS).mpr hle)
  have hpos := hv.windowSize
  obtain ⟨it₁, hset, hphase⟩ :=
    h.ready.setInput (a := a) hv (by omega) hinput hfits
  have hlen : (s.samples ++ input).length =
      s.samples.length + input.length := List.length_append
  obtain ⟨ws, it₂, htake, hall, hready⟩ :=
    hphase.takeAll (a := a) hv (input.length + 1)
      (Window.count_mono (by omega)) (by omega)
  rw [Window.map_nth_append hS, ← h.windows] at hall
  simp only [PcmRun.give, hset, ne_eq, not_true_eq_false, if_false, htake]
  exact ⟨h.failed, hall, hready⟩

theorem Kept.start (hv : PCMIterator.Valid S W)
    (hs : (pcmMachine a S W).start s) : s.Kept S W := by
  obtain ⟨newCells, it, hinit, rfl⟩ := hs
  have hstep := hv.stepLe
  have hzero : Window.count S W ([] : List Int16).length = 0 := by
    rw [Window.count, List.length_nil, Nat.zero_add,
      Nat.sub_eq_zero_of_le hstep, Nat.zero_div]
  refine ⟨rfl, ?_, ?_⟩
  · rw [Window.all, hzero]
    rfl
  · rw [hzero, Nat.zero_mul]
    exact .inr (.inr ⟨PCMIterator.init_direct hv hinit, .inr rfl⟩)

end PcmRun

/-- As long as what is left of the cache fits where it goes, every `SetInput`
succeeds, every loop ends, and the windows that were handed out are the
complete windows of the inputs so far. -/
theorem reach_windows {a : Abi} {S W : Nat} {s : PcmRun}
    (hs : (pcmMachine a S W).Reach PcmRun.restFits s) (hS : 1 ≤ S)
    (hstep : S ≤ W) (hW : 2 ≤ W) (hroom : (W - 2) / S * S + W ≤ 16384) :
    s.failed = false ∧ s.windows = Window.all S W s.samples := by
  have hv : PCMIterator.Valid S W := ⟨hS, hstep, hW, hroom⟩
  have h : s.Kept S W := by
    refine hs.invariant (fun _ hs => .start hv hs)
      fun s input s' h hok hrun => ?_
    simp only [pcmMachine] at hrun
    split at hrun
    · cases hrun
    · next hne =>
        cases hrun
        exact h.give hv (Nat.pos_of_ne_zero hne) hok
  exact ⟨h.failed, h.windows⟩

def pcmSample (S W : Nat) : PcmRun :=
  ⟨(PCMIterator.new.init .lp64 S W (some fun _ => 0)).2, [], [], false⟩

/-- Windows of four that begin at every second sample, over short inputs. -/
theorem reach_windows_sample : ∃ s,
    (pcmMachine .lp64 2 4).run PcmRun.restFits (pcmSample 2 4)
      [[1], [2, 3], [4, 5, 6], [7, 8]] = some s ∧
      s.windows = [[1, 2, 3, 4], [3, 4, 5, 6], [5, 6, 7, 8]] := by
  have hrun : ((pcmMachine .lp64 2 4).run PcmRun.restFits (pcmSample 2 4)
      [[1], [2, 3], [4, 5, 6], [7, 8]]).map (·.samples) =
        some [1, 2, 3, 4, 5, 6, 7, 8] := by decide
  obtain ⟨s, hs, hsamples⟩ := Option.map_eq_some_iff.mp hrun
  have hreach : (pcmMachine .lp64 2 4).Reach PcmRun.restFits s :=
    .of_run (.start ⟨_, _, rfl, rfl⟩) hs
  have hwindows := (reach_windows hreach (by decide) (by decide) (by decide)
    (by decide)).2
  rw [hsamples] at hwindows
  exact ⟨s, hs, hwindows.trans (by decide)⟩

/-- Three inputs of one sample fill the cache but for one sample. The rest
overlaps its destination, and the second window is lost. -/
theorem shortInputs_not_windows :
    ¬ ∀ s, (pcmMachine .lp64 1 4).Reach Machine.anyStep s →
      s.failed = false ∧ s.windows = Window.all 1 4 s.samples := by
  intro h
  have hrun : ((pcmMachine .lp64 1 4).run Machine.anyStep (pcmSample 1 4)
      [[1], [2], [3], [4, 5]]).map (fun s => (s.samples, s.windows)) =
        some ([1, 2, 3, 4, 5], [[1, 2, 3, 4]]) := by decide
  obtain ⟨s, hs, heq⟩ := Option.map_eq_some_iff.mp hrun
  obtain ⟨hsamples, hwindows⟩ := Prod.mk.inj heq
  have hall := (h s (.of_run (.start ⟨_, _, rfl, rfl⟩) hs)).2
  rw [hsamples, hwindows] at hall
  exact absurd hall (by decide)

end AiEngine.Ref
