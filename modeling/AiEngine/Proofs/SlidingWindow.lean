import AiEngine.Lib.Window
import AiEngine.Ref.SlideWindow

/-!
# What the slide window processor hands out

A window is a range of the work buffer, and the next one begins a step later.
When there is no room for another step, the part of the last window that the
next one needs is moved to the front. The move comes before the return, so it
must not touch the window that has just been handed out. With a buffer of two
windows or more that window is far enough from the front. A buffer of one
window is overwritten at each call, unless windows share nothing.
-/

namespace AiEngine.Ref

open AiEngine.Lib

namespace SlideWindowProcessor

variable {a : Abi} {config : SlideWindowProcessorConfig}
variable {p : SlideWindowProcessor} {seen data : List UInt8}

/-- What `Init` leaves of a configuration, in bytes, and no call changes. -/
structure Sized (config : SlideWindowProcessorConfig)
    (p : SlideWindowProcessor) : Prop where
  initialized : p.isInitialized = true
  inType : p.inType = config.dataType
  typeSize : p.typeSize = config.dataType.size
  windowSize : p.windowSize = config.windowSize
  stepSize : p.stepSize = config.stepSize * config.dataType.size
  window : p.initIndex + p.stepSize = p.windowSize * p.typeSize
  bufferSize : p.bufferSize =
    config.windowSize * config.bufferMultiplier.toNat * config.dataType.size
  length : p.workBuffer.length = p.bufferSize
  positive : 0 < p.stepSize
  small : p.bufferSize ≤ memcpyMax

/-- The buffer has what the next window shares with what was seen, and room
for a step. -/
structure Seen (config : SlideWindowProcessorConfig) (seen : List UInt8)
    (p : SlideWindowProcessor) : Prop where
  sized : p.Sized config
  start : p.startIndex = p.inputFeature + p.initIndex
  room : p.startIndex + p.stepSize ≤ p.bufferSize
  held : (p.workBuffer.drop p.inputFeature).take p.initIndex =
    seen.rtake p.initIndex

/-- The buffer has a second window, or windows share nothing. -/
def KeepsWindow (config : SlideWindowProcessorConfig) : Prop :=
  2 ≤ config.bufferMultiplier.toNat ∨ config.stepSize = config.windowSize

instance : Decidable (KeepsWindow config) :=
  inferInstanceAs (Decidable (_ ∨ _))

theorem Sized.keepsWindow (h : p.Sized config) (hkeep : KeepsWindow config) :
    p.initIndex = 0 ∨ 2 * (p.windowSize * p.typeSize) ≤ p.bufferSize := by
  have hwindow := h.window
  rw [h.windowSize, h.typeSize, h.stepSize] at hwindow
  rcases hkeep with htwice | hsame
  · refine .inr ?_
    rw [h.bufferSize, h.windowSize, h.typeSize, ← Nat.mul_assoc]
    refine Nat.mul_le_mul_right _ ?_
    rw [Nat.mul_comm 2]
    exact Nat.mul_le_mul_left _ htwice
  · rw [hsame] at hwindow
    exact .inl (by omega)

theorem Sized.lt_sizeMod (h : p.Sized config) (a : Abi) {n : Nat}
    (hn : n ≤ p.bufferSize) : n < a.sizeMod := by
  have hmod := a.sizeMod_ge
  have hmax : p.bufferSize ≤ 2147483647 := h.small
  omega

/-- The state after the copy of the input. -/
def copied (p : SlideWindowProcessor) (data : List UInt8) :
    SlideWindowProcessor :=
  { p with
    workBuffer := p.workBuffer.take p.startIndex ++ data ++
      p.workBuffer.drop (p.startIndex + p.stepSize)
    startIndex := p.startIndex + p.stepSize
    inputFeature := p.inputFeature + p.stepSize }

/-- The state after the move to the front. -/
def compacted (p : SlideWindowProcessor) : SlideWindowProcessor :=
  { p with
    workBuffer := (p.workBuffer.drop p.inputFeature).take p.initIndex ++
      p.workBuffer.drop p.initIndex
    startIndex := p.initIndex
    inputFeature := 0 }

theorem Seen.length_copied (h : p.Seen config seen)
    (hdata : data.length = p.stepSize) :
    (p.copied data).workBuffer.length = p.bufferSize := by
  have hroom := h.room
  have hlen := h.sized.length
  simp only [copied, List.length_append, List.length_take, List.length_drop]
  omega

theorem Seen.memcpyS_eq (h : p.Seen config seen)
    (hdata : data.length = p.stepSize) :
    memcpyS p.workBuffer p.startIndex (a.sub p.bufferSize p.startIndex) data
      0 p.stepSize = .ok (p.copied data).workBuffer := by
  have hroom := h.room
  have hstep := h.sized.positive
  have hlen := h.sized.length
  have hmax := h.sized.small
  have hfit := h.sized.lt_sizeMod a (Nat.le_refl _)
  have hok : memcpyOk (p.bufferSize - p.startIndex) p.stepSize = true := by
    simp only [memcpyOk, Bool.and_eq_true, decide_eq_true_eq]
    omega
  have hcopy := AiEngine.Ref.memcpyS_eq p.workBuffer data hok
    (show 0 + p.stepSize ≤ data.length by omega)
    (show p.startIndex + p.stepSize ≤ p.workBuffer.length by omega)
  rw [List.drop_zero, List.take_of_length_le (Nat.le_of_eq hdata)] at hcopy
  rw [Abi.sub_of_le (by omega) hfit, hcopy, copied]

theorem Seen.compact_eq (h : p.Seen config seen)
    (hdata : data.length = p.stepSize) :
    (p.copied data).compact = .ok (p.copied data).compacted := by
  have hroom := h.room
  have hstep := h.sized.positive
  have hmax := h.sized.small
  have hlen := h.length_copied hdata
  have hstart := h.start
  have hok : memcpyOk p.bufferSize p.initIndex = true := by
    simp only [memcpyOk, Bool.and_eq_true, decide_eq_true_eq]
    omega
  have hmove := AiEngine.Ref.memcpyS_eq (p.copied data).workBuffer
    (p.copied data).workBuffer hok
    (show p.inputFeature + p.stepSize + p.initIndex ≤ _ by omega)
    (show 0 + p.initIndex ≤ _ by omega)
  rw [List.take_zero, List.nil_append, Nat.zero_add] at hmove
  rw [compact, memmoveS]
  change (memcpyS (p.copied data).workBuffer 0 p.bufferSize
    (p.copied data).workBuffer (p.inputFeature + p.stepSize)
    p.initIndex >>= _) = _
  rw [hmove]
  rfl

/-- `Process` copies, and moves if there is no room for another step. -/
theorem Seen.process_eq (h : p.Seen config seen)
    {size : Nat} (hsize : size ≠ 0)
    (hbytes : a.sizeT (size * p.typeSize) = p.stepSize)
    (hdata : data.length = p.stepSize) (outType : DataType) :
    p.process a ⟨p.inType, some data, size⟩ ⟨outType, none, 0⟩ =
      some (Retcode.success, ⟨p.inType, some p.inputFeature, p.windowSize⟩,
        if p.bufferSize - (p.startIndex + p.stepSize) < p.stepSize then
          (p.copied data).compacted
        else p.copied data) := by
  have hcopy := h.memcpyS_eq (a := a) hdata
  have hcompact := h.compact_eq hdata
  have hnext : a.sizeT (p.startIndex + p.stepSize) =
      p.startIndex + p.stepSize :=
    Abi.sizeT_of_lt (h.sized.lt_sizeMod a h.room)
  have hleft : a.sub p.bufferSize (p.startIndex + p.stepSize) =
      p.bufferSize - (p.startIndex + p.stepSize) :=
    Abi.sub_of_le h.room (h.sized.lt_sizeMod a (Nat.le_refl _))
  rw [process, if_neg (not_not.mpr h.sized.initialized),
    if_neg (not_not.mpr rfl)]
  simp only [hbytes, hcopy, hnext, hleft, hsize, ne_eq, not_true_eq_false,
    if_false, or_self]
  split
  · next hlt =>
      split
      · next hfault => cases hcompact.symm.trans hfault
      · next hfail => cases hcompact.symm.trans hfail
      · next hok =>
          cases hcompact.symm.trans hok
          rfl
  · rfl

/-! ## What a call leaves

The chunk is written behind what is kept, and the window ends with it. Where
the buffer is full the windows are moved to its front first. -/

/-- From the cursor on, a window is what is kept and the input. -/
theorem Seen.window_copied (h : p.Seen config seen)
    (hdata : data.length = p.stepSize) :
    ((p.copied data).workBuffer.drop p.inputFeature).take
        (p.windowSize * p.typeSize) =
      (seen ++ data).rtake (p.windowSize * p.typeSize) := by
  have hwindow := h.sized.window
  have hstart := h.start
  have hroom := h.room
  have hlen := h.sized.length
  have hwrite := take_drop_write p.workBuffer data
    (show p.inputFeature ≤ p.startIndex by omega) (by omega)
  rw [hstart, Nat.add_sub_cancel_left, h.held, hdata, hwindow,
    ← hstart] at hwrite
  rw [copied, hwrite, Window.rtake_append seen (by omega)]
  congr 2
  omega

/-- What the next window needs comes a step later. -/
theorem Seen.held_copied (h : p.Seen config seen)
    (hdata : data.length = p.stepSize) :
    ((p.copied data).workBuffer.drop (p.inputFeature + p.stepSize)).take
        p.initIndex = (seen ++ data).rtake p.initIndex := by
  have hwindow := h.sized.window
  have hroom := h.room
  have hstart := h.start
  have hlen := h.length_copied hdata
  have heq := congrArg (List.rtake · p.initIndex) (h.window_copied hdata)
  rw [Window.rtake_rtake _ (by omega)] at heq
  rw [← heq, List.rtake, List.length_take, List.length_drop, hlen,
    ← List.drop_drop, List.take_drop]
  congr 2 <;> omega

theorem Seen.copied (h : p.Seen config seen)
    (hdata : data.length = p.stepSize)
    (hroom : p.startIndex + p.stepSize + p.stepSize ≤ p.bufferSize) :
    (p.copied data).Seen config (seen ++ data) where
  sized := { h.sized with length := h.length_copied hdata }
  start := by
    have hstart := h.start
    change p.startIndex + p.stepSize = p.inputFeature + p.stepSize + _
    change _ = _ + p.initIndex
    omega
  room := hroom
  held := h.held_copied hdata

theorem workBuffer_compacted : (p.copied data).compacted.workBuffer =
    ((p.copied data).workBuffer.drop (p.inputFeature + p.stepSize)).take
        p.initIndex ++ (p.copied data).workBuffer.drop p.initIndex := rfl

theorem Seen.length_front (h : p.Seen config seen)
    (hdata : data.length = p.stepSize) :
    (((p.copied data).workBuffer.drop (p.inputFeature + p.stepSize)).take
      p.initIndex).length = p.initIndex := by
  have hroom := h.room
  have hstart := h.start
  have hlen := h.length_copied hdata
  rw [List.length_take, List.length_drop]
  omega

theorem Seen.compacted (h : p.Seen config seen)
    (hdata : data.length = p.stepSize) :
    (p.copied data).compacted.Seen config (seen ++ data) := by
  have hfront := h.length_front hdata
  have hroom := h.room
  have hstart := h.start
  have hlen := h.length_copied hdata
  refine ⟨{ h.sized with length := ?_ }, (Nat.zero_add _).symm, ?_, ?_⟩
  · rw [workBuffer_compacted, List.length_append, hfront, List.length_drop,
      hlen]
    change _ = p.bufferSize
    omega
  · change p.initIndex + p.stepSize ≤ p.bufferSize
    omega
  · rw [workBuffer_compacted]
    change ((_ ++ _ : List UInt8).drop 0).take p.initIndex =
      (seen ++ data).rtake p.initIndex
    rw [List.drop_zero, List.take_left' hfront, h.held_copied hdata]

/-- The window that was handed out is behind what a move overwrites. -/
theorem Seen.window_compacted (h : p.Seen config seen)
    (hdata : data.length = p.stepSize) (hkeep : KeepsWindow config)
    (hfull : p.bufferSize < p.startIndex + p.stepSize + p.stepSize) :
    (p.copied data).compacted.workBuffer.drop p.inputFeature =
      (p.copied data).workBuffer.drop p.inputFeature := by
  have hwindow := h.sized.window
  have hstart := h.start
  have hfront := h.length_front hdata
  have hle : p.initIndex ≤ p.inputFeature := by
    rcases h.sized.keepsWindow hkeep with hzero | htwice <;> omega
  have hdrop (mem : List UInt8) : mem.drop p.inputFeature =
      (mem.drop p.initIndex).drop (p.inputFeature - p.initIndex) := by
    rw [List.drop_drop, Nat.add_sub_cancel' hle]
  rw [hdrop, hdrop (p.copied data).workBuffer, workBuffer_compacted,
    List.drop_left' hfront]

theorem Seen.bytesOf (h : p.Seen config seen)
    (hdata : data.length = p.stepSize) {p' : SlideWindowProcessor}
    (htype : p'.typeSize = p.typeSize)
    (hlen : p'.workBuffer.length = p.bufferSize)
    (hsame : p'.workBuffer.drop p.inputFeature =
      (p.copied data).workBuffer.drop p.inputFeature) :
    p'.bytesOf ⟨p.inType, some p.inputFeature, p.windowSize⟩ =
      some ((seen ++ data).rtake (p.windowSize * p.typeSize)) := by
  have hwindow := h.sized.window
  have hstart := h.start
  have hroom := h.room
  obtain ⟨v, hv⟩ := load_isSome
    (show p.inputFeature + p.windowSize * p.typeSize ≤
      p'.workBuffer.length by omega)
  rw [← h.window_copied hdata, ← hsame, ← (load_spec hv).2]
  change (load p'.workBuffer p.inputFeature (p.windowSize * p'.typeSize)).map
    Vector.toList = _
  rw [htype, hv, Option.map_some]

/-- A call succeeds, and hands out the last window of what was seen. -/
theorem Seen.process (h : p.Seen config seen) (hkeep : KeepsWindow config)
    (hstep : config.stepSize ≠ 0) (hdata : data.length = p.stepSize)
    (outType : DataType) :
    ∃ output p',
      p.process a ⟨p.inType, some data, config.stepSize⟩ ⟨outType, none, 0⟩ =
        some (Retcode.success, output, p') ∧
      p'.Seen config (seen ++ data) ∧
      p'.bytesOf output =
        some ((seen ++ data).rtake (p.windowSize * p.typeSize)) := by
  have hroom := h.room
  have hbytes : a.sizeT (config.stepSize * p.typeSize) = p.stepSize := by
    rw [h.sized.typeSize, ← h.sized.stepSize]
    exact Abi.sizeT_of_lt (h.sized.lt_sizeMod a (by omega))
  refine ⟨_, _, h.process_eq hstep hbytes hdata outType, ?_⟩
  split
  · next hfull =>
      have hkept := h.compacted hdata
      exact ⟨hkept, h.bytesOf hdata rfl hkept.sized.length
        (h.window_compacted hdata hkeep (by omega))⟩
  · next hleft =>
      have hkept := h.copied hdata (by omega)
      exact ⟨hkept, h.bytesOf hdata rfl hkept.sized.length rfl⟩

/-- What the calls answer: success, and the last window of what was seen. -/
def slides (config : SlideWindowProcessorConfig) (seen : List UInt8)
    (inputs : List (DataType × List UInt8)) :
    List (Int × Option (List UInt8)) :=
  (Window.lastAfterEach (config.windowSize * config.dataType.size) seen
    (inputs.map (·.2))).map fun window => (Retcode.success, some window)

theorem Seen.processAll (hkeep : KeepsWindow config)
    (hstep : config.stepSize ≠ 0) {inputs : List (DataType × List UInt8)}
    (hinputs : ∀ x ∈ inputs,
      x.2.length = config.stepSize * config.dataType.size) :
    ∀ {p : SlideWindowProcessor} {seen : List UInt8}, p.Seen config seen →
      p.processAll a config.stepSize inputs =
        some (slides config seen inputs) := by
  induction inputs with
  | nil => exact fun _ => rfl
  | cons x inputs ih =>
      intro p seen h
      have hdata := (hinputs x (.head _)).trans h.sized.stepSize.symm
      obtain ⟨output, p', hrun, hnext, hbytes⟩ :=
        h.process (a := a) hkeep hstep hdata x.1
      have hrest := ih (fun y hy => hinputs y (.tail _ hy)) hnext
      rw [h.sized.windowSize, h.sized.typeSize] at hbytes
      simp only [SlideWindowProcessor.processAll, hrun, hrest, hbytes,
        Option.bind_eq_bind, Option.bind_some]
      rfl

theorem size_pos_le (t : DataType) : 0 < t.size ∧ t.size ≤ 5 := by
  cases t <;> decide

/-- The sizes of a configuration are far from the end of `size_t`. -/
theorem size_bounds (hle : config.stepSize ≤ config.windowSize)
    (hmax : config.windowSize ≤ maxSampleSize) :
    config.stepSize * config.dataType.size ≤
        config.windowSize * config.dataType.size ∧
      config.windowSize * config.dataType.size ≤ 100000 ∧
      config.windowSize * config.bufferMultiplier.toNat ≤ 5100000 ∧
      config.windowSize * config.bufferMultiplier.toNat *
        config.dataType.size ≤ 25500000 := by
  have hsize := (size_pos_le config.dataType).2
  have hmul : config.bufferMultiplier.toNat ≤ 255 :=
    Nat.le_of_lt_succ config.bufferMultiplier.toNat_lt
  have hbuffer := Nat.mul_le_mul hmax hmul
  exact ⟨Nat.mul_le_mul_right _ hle, Nat.mul_le_mul hmax hsize, hbuffer,
    Nat.mul_le_mul hbuffer hsize⟩

/-- `Init` succeeds with a configuration that it accepts, and leaves a buffer
of zeros. -/
theorem init_eq {p₀ : SlideWindowProcessor} {newBuffer : Bool}
    (hinit : p₀.init a (some config) newBuffer = (Retcode.success, p)) :
    config.stepSize ≤ config.windowSize ∧
      config.windowSize ≤ maxSampleSize ∧
      config.bufferMultiplier ≠ 0 ∧
      p = {
        isInitialized := true
        workBuffer := List.replicate (config.windowSize *
          config.bufferMultiplier.toNat * config.dataType.size) 0
        inputFeature := 0
        inType := config.dataType
        typeSize := config.dataType.size
        startIndex := (config.windowSize - config.stepSize) *
          config.dataType.size
        initIndex := (config.windowSize - config.stepSize) *
          config.dataType.size
        bufferSize := config.windowSize * config.bufferMultiplier.toNat *
          config.dataType.size
        windowSize := config.windowSize
        stepSize := config.stepSize * config.dataType.size } := by
  have hfail {q : SlideWindowProcessor}
      (h : (Retcode.failure, q) = (Retcode.success, p)) : False :=
    absurd (Prod.mk.inj h).1 (by decide)
  simp only [init] at hinit
  split at hinit
  · exact (hfail hinit).elim
  · split at hinit
    · exact (hfail hinit).elim
    · split at hinit
      · exact (hfail hinit).elim
      · next hle =>
          split at hinit
          · exact (hfail hinit).elim
          · next hmul =>
              split at hinit
              · exact (hfail hinit).elim
              · next hmax =>
                  split at hinit
                  · exact (hfail hinit).elim
                  · have hle' := Nat.le_of_not_lt hle
                    have hmax' := Nat.le_of_not_lt hmax
                    obtain ⟨hstep, hwindow, hcells, hbuffer⟩ :=
                      size_bounds hle' hmax'
                    have hmod := a.sizeMod_ge
                    have hsub := Abi.sub_of_le (a := a) hstep (by omega)
                    refine ⟨hle', hmax', hmul, ?_⟩
                    rw [← (Prod.mk.inj hinit).2,
                      Abi.sizeT_small (Nat.lt_of_le_of_lt hcells (by decide)),
                      Abi.sizeT_small (Nat.lt_of_le_of_lt hbuffer (by decide)),
                      Abi.sizeT_small (Nat.lt_of_le_of_lt hwindow (by decide)),
                      Abi.sizeT_small (Nat.lt_of_le_of_lt
                        (Nat.le_trans hstep hwindow) (by decide)),
                      hsub, Nat.sub_mul]

theorem window_le_buffer (hmul : config.bufferMultiplier ≠ 0) :
    config.windowSize * config.dataType.size ≤
      config.windowSize * config.bufferMultiplier.toNat *
        config.dataType.size := by
  have hpos : 1 ≤ config.bufferMultiplier.toNat :=
    Nat.one_le_iff_ne_zero.mpr fun h => hmul (UInt8.toNat_inj.mp h)
  exact Nat.mul_le_mul_right _ (Nat.le_mul_of_pos_right _ hpos)

theorem kept_add_step (hle : config.stepSize ≤ config.windowSize) :
    (config.windowSize - config.stepSize) * config.dataType.size +
      config.stepSize * config.dataType.size =
        config.windowSize * config.dataType.size := by
  rw [← Nat.add_mul, Nat.sub_add_cancel hle]

theorem init_seen {p₀ : SlideWindowProcessor} {newBuffer : Bool}
    (hinit : p₀.init a (some config) newBuffer = (Retcode.success, p))
    (hstep : config.stepSize ≠ 0) :
    p.Seen config (List.replicate
      ((config.windowSize - config.stepSize) * config.dataType.size) 0) := by
  obtain ⟨hle, hmax, hmul, rfl⟩ := init_eq hinit
  have hbounds := size_bounds hle hmax
  have hsize := (size_pos_le config.dataType).1
  have hbuffer := window_le_buffer hmul
  have hsplit := kept_add_step hle
  refine ⟨⟨rfl, rfl, rfl, rfl, rfl, hsplit, rfl, List.length_replicate,
    Nat.mul_pos (Nat.pos_of_ne_zero hstep) hsize, ?_⟩, (Nat.zero_add _).symm,
    ?_, ?_⟩
  · exact Nat.le_trans hbounds.2.2.2 (by decide)
  · exact hsplit ▸ hbuffer
  · have hfront : (config.windowSize - config.stepSize) *
        config.dataType.size ≤ config.windowSize *
          config.bufferMultiplier.toNat * config.dataType.size := by omega
    rw [List.drop_zero, List.rtake, List.length_replicate, Nat.sub_self,
      List.drop_zero, List.take_replicate]
    exact congrArg (List.replicate · 0) (Nat.min_eq_left hfront)

/-! ## A buffer of one window

Here the window that was handed out is where the next chunk goes, so that it
changes under whoever still looks at it. -/

/-- What the first window is overwritten with, after an input of ones: its
last kept byte is the last byte of the input. -/
theorem Seen.overwritten (h : p.Seen config (List.replicate p.initIndex 0))
    (hinit : p.initIndex ≠ 0) :
    (p.copied (List.replicate p.stepSize 1)).compacted.workBuffer[
        p.initIndex - 1]? = some 1 ∧
      ((List.replicate p.initIndex 0 ++
          List.replicate p.stepSize (1 : UInt8)).rtake
        (p.windowSize * p.typeSize))[p.initIndex - 1]? = some 0 := by
  have hdata : (List.replicate p.stepSize (1 : UInt8)).length = p.stepSize :=
    List.length_replicate
  have hpos := h.sized.positive
  have hwindow := h.sized.window
  have hfront := h.length_front hdata
  constructor
  · rw [workBuffer_compacted, List.getElem?_append_left (by omega),
      h.held_copied hdata, List.rtake, List.getElem?_drop,
      List.length_append, List.length_replicate, List.length_replicate,
      List.getElem?_append_right (by rw [List.length_replicate]; omega),
      List.getElem?_replicate_of_lt (by rw [List.length_replicate]; omega)]
  · rw [List.rtake, ← hwindow, List.length_append, List.length_replicate,
      List.length_replicate, Nat.sub_self, List.drop_zero,
      List.getElem?_append_left (by rw [List.length_replicate]; omega),
      List.getElem?_replicate_of_lt (by omega)]

/-- In a buffer of one window the first call moves at once. -/
theorem Seen.processAll_overwritten
    (h : p.Seen config (List.replicate p.initIndex 0))
    (hcursor : p.inputFeature = 0)
    (hone : p.bufferSize = p.windowSize * p.typeSize)
    (hstep : config.stepSize ≠ 0) :
    p.processAll a config.stepSize
        [(.unknown, List.replicate p.stepSize 1)] =
      some [(Retcode.success, some
        (p.copied (List.replicate p.stepSize 1)).compacted.workBuffer)] := by
  have hdata : (List.replicate p.stepSize (1 : UInt8)).length = p.stepSize :=
    List.length_replicate
  have hroom := h.room
  have hpos := h.sized.positive
  have hstart := h.start
  have hwindow := h.sized.window
  have hlen := (h.compacted hdata).sized.length
  have hbytes : a.sizeT (config.stepSize * p.typeSize) = p.stepSize := by
    rw [h.sized.typeSize, ← h.sized.stepSize]
    exact Abi.sizeT_of_lt (h.sized.lt_sizeMod a (by omega))
  have hrun := h.process_eq hstep hbytes hdata .unknown
  rw [if_pos (by omega), hcursor] at hrun
  have hread : (p.copied (List.replicate p.stepSize 1)).compacted.bytesOf
      ⟨p.inType, some 0, p.windowSize⟩ = some
        (p.copied (List.replicate p.stepSize 1)).compacted.workBuffer := by
    change (load _ 0 (p.windowSize * p.typeSize)).map Vector.toList = _
    obtain ⟨v, hv⟩ := load_isSome (show 0 + p.windowSize * p.typeSize ≤
      (p.copied (List.replicate p.stepSize 1)).compacted.workBuffer.length by
        rw [Nat.zero_add, ← hone, hlen]
        exact Nat.le_refl _)
    rw [hv, Option.map_some, (load_spec hv).2, List.drop_zero,
      List.take_of_length_le]
    rw [hlen, ← hone]
    exact Nat.le_refl _
  simp only [SlideWindowProcessor.processAll, hrun, hread,
    Option.bind_eq_bind, Option.bind_some]
  rfl

/-- The first window is not what it should be where windows share something
and the buffer has room for one. -/
theorem overwrites {p₀ : SlideWindowProcessor} {newBuffer : Bool}
    (hinit : p₀.init a (some config) newBuffer = (Retcode.success, p))
    (hstep : config.stepSize ≠ 0) (hnot : ¬ KeepsWindow config) :
    ∃ inputs : List (DataType × List UInt8),
      (∀ x ∈ inputs,
        x.2.length = config.stepSize * config.dataType.size) ∧
      p.processAll a config.stepSize inputs ≠
        some (slides config (List.replicate
          ((config.windowSize - config.stepSize) * config.dataType.size) 0)
          inputs) := by
  have h := init_seen hinit hstep
  obtain ⟨hle, hmax, hmul, hp⟩ := init_eq hinit
  have hindex : p.initIndex =
      (config.windowSize - config.stepSize) * config.dataType.size :=
    hp ▸ rfl
  have hsize := (size_pos_le config.dataType).1
  have hmany : config.bufferMultiplier.toNat = 1 := by
    have hpos : config.bufferMultiplier.toNat ≠ 0 :=
      fun h => hmul (UInt8.toNat_inj.mp h)
    have hlt : ¬ 2 ≤ config.bufferMultiplier.toNat :=
      fun htwo => hnot (.inl htwo)
    omega
  have hshare : p.initIndex ≠ 0 := by
    have hne : config.stepSize ≠ config.windowSize :=
      fun hsame => hnot (.inr hsame)
    rw [hindex]
    exact Nat.mul_ne_zero (by omega) (Nat.pos_iff_ne_zero.mp hsize)
  rw [← hindex] at h ⊢
  have hone : p.bufferSize = p.windowSize * p.typeSize := by
    rw [h.sized.bufferSize, hmany, Nat.mul_one, h.sized.windowSize,
      h.sized.typeSize]
  refine ⟨[(.unknown, List.replicate p.stepSize 1)], fun x hx => ?_, ?_⟩
  · rw [List.mem_singleton.mp hx, List.length_replicate, h.sized.stepSize]
  · rw [h.processAll_overwritten (hp ▸ rfl) hone hstep]
    intro heq
    obtain ⟨hgot, hwant⟩ := h.overwritten hshare
    have hsame := Option.some.inj
      (Prod.mk.inj (List.cons.inj (Option.some.inj heq)).1).2
    rw [h.sized.windowSize, h.sized.typeSize] at hwant
    rw [hsame] at hgot
    exact absurd (hgot.symm.trans hwant) (by decide)

end SlideWindowProcessor

/-- With a configuration that `Init` accepts, every call of every sequence
succeeds and hands out the last window, if and only if the buffer has a second
window or windows share nothing. -/
theorem slides_iff {a : Abi} {config : SlideWindowProcessorConfig}
    {p₀ p : SlideWindowProcessor} {newBuffer : Bool}
    (hinit : p₀.init a (some config) newBuffer = (Retcode.success, p))
    (hstep : 1 ≤ config.stepSize) :
    (∀ inputs : List (DataType × List UInt8),
      (∀ x ∈ inputs,
        x.2.length = config.stepSize * config.dataType.size) →
      p.processAll a config.stepSize inputs =
        some (SlideWindowProcessor.slides config (List.replicate
          ((config.windowSize - config.stepSize) * config.dataType.size) 0)
          inputs)) ↔
      SlideWindowProcessor.KeepsWindow config := by
  have hne := Nat.one_le_iff_ne_zero.mp hstep
  constructor
  · intro hall
    by_contra hnot
    obtain ⟨inputs, hinputs, hwrong⟩ :=
      SlideWindowProcessor.overwrites hinit hne hnot
    exact hwrong (hall inputs hinputs)
  · intro hkeep inputs hinputs
    exact SlideWindowProcessor.Seen.processAll hkeep hne hinputs
      (SlideWindowProcessor.init_seen hinit hne)

/-- The default multiplier. -/
def sampleConfig : SlideWindowProcessorConfig := ⟨.int16, 4, 2, 3⟩

theorem slides_iff_sample :
    (SlideWindowProcessor.new.init .lp64 (some sampleConfig) true).2.processAll
        .lp64 2 [(.unknown, [1, 0, 2, 0])] =
      some [(Retcode.success, some [0, 0, 1, 0, 2, 0])] := by
  have hinit : SlideWindowProcessor.new.init .lp64 (some sampleConfig) true =
      (Retcode.success, _) := rfl
  exact (slides_iff hinit (by decide)).mpr (by decide)
    [(.unknown, [1, 0, 2, 0])] (by decide)

/-- `Init` accepts a multiplier of one. The window of the first call is
overwritten before the call returns. -/
theorem oneWindow_not_slides :
    ¬ ∀ (config : SlideWindowProcessorConfig) (p : SlideWindowProcessor),
      SlideWindowProcessor.new.init .lp64 (some config) true =
        (Retcode.success, p) →
      1 ≤ config.stepSize →
      ∀ inputs : List (DataType × List UInt8),
        (∀ x ∈ inputs,
          x.2.length = config.stepSize * config.dataType.size) →
        p.processAll .lp64 config.stepSize inputs =
          some (SlideWindowProcessor.slides config (List.replicate
            ((config.windowSize - config.stepSize) * config.dataType.size) 0)
            inputs) := by
  intro h
  have hwindow := h ⟨.uint8, 1, 1, 2⟩ _ rfl (by decide) [(.unknown, [7])]
    (by decide)
  exact absurd hwindow (by decide)

end AiEngine.Ref
