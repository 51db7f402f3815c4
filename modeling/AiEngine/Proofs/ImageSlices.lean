import AiEngine.Ref.ImageTransfer

/-!
# What becomes of an image that is sent in slices

The slices of an image begin where the last one ended, so the model input up
to that place is the image. The slice that ends where the model input ends
starts the inference, on bytes of this image only. An image that is longer
goes on to a slice that is refused. An image that is shorter ends with no
inference and no result, and with the code of the last slice, which is that of
success.
-/

namespace AiEngine.Ref

open AiEngine.Lib

variable {ω : Type} (infer : List UInt8 → ω) {M : Nat}

namespace IcSdk

variable {s s' : IcSdk ω} {image : List UInt8} {o : Nat}

/-- The plugin has the model input of the client's handle. -/
def Created (M : Nat) (s : IcSdk ω) : Prop :=
  ∃ config, s.plugin.handles.lookup s.icHandle = some config ∧
    config.inputSize = M ∧ config.input.length = M

/-- The model input begins with the image, up to some place. -/
def Sent (M : Nat) (image : List UInt8) (o : Nat) (s : IcSdk ω) : Prop :=
  ∃ config, s.plugin.handles.lookup s.icHandle = some config ∧
    config.inputSize = M ∧ config.input.length = M ∧
    config.input.take o = image.take o

theorem Created.sent (h : s.Created M) : s.Sent M image 0 := by
  obtain ⟨config, hlookup, hsize, hlen⟩ := h
  exact ⟨config, hlookup, hsize, hlen, rfl⟩

theorem Sent.created (h : s.Sent M image o) : s.Created M := by
  obtain ⟨config, hlookup, hsize, hlen, _⟩ := h
  exact ⟨config, hlookup, hsize, hlen⟩

/-- The slice of an image at some place. -/
def sliceAt (s : IcSdk ω) (image : List UInt8) (o size : Nat) :
    SlicedImage :=
  ⟨s.icHandle, o, (image.drop o).take size⟩

theorem length_slice {size : Nat} (hsize : o + size ≤ image.length) :
    ((image.drop o).take size).length = size := by
  rw [List.length_take, List.length_drop]
  omega

/-- What only adds inferences, and lets the client be. -/
structure Infers (new : List (Int64 × List UInt8)) (s s' : IcSdk ω) :
    Prop where
  icHandle : s'.icHandle = s.icHandle
  hasCallback : s'.hasCallback = s.hasCallback
  events : s'.events = s.events
  invoked : s'.plugin.invoked = s.plugin.invoked ++ new

theorem Infers.refl (s : IcSdk ω) : Infers [] s s :=
  ⟨rfl, rfl, rfl, (List.append_nil _).symm⟩

theorem Infers.trans {new more : List (Int64 × List UInt8)} {s'' : IcSdk ω}
    (h : Infers new s s') (h' : Infers more s' s'') :
    Infers (new ++ more) s s'' :=
  ⟨h'.icHandle.trans h.icHandle, h'.hasCallback.trans h.hasCallback,
    h'.events.trans h.events,
    by rw [h'.invoked, h.invoked, List.append_assoc]⟩

/-- The inference that a slice starts which ends at some place. -/
def inferenceAt (M : Nat) (handle : Int64) (image : List UInt8) (e : Nat) :
    List (Int64 × List UInt8) :=
  if e = M then [(handle, image.take M)] else []

/-- The result of that slice. -/
def resultAt (infer : List UInt8 → ω) (M : Nat) (handle : Int64)
    (image : List UInt8) (e : Nat) : Option (IcResult ω) :=
  if e = M then some ⟨handle, infer (image.take M)⟩ else none

/-- The model input with a slice copied to its place. -/
def copiedSlice (input image : List UInt8) (o size : Nat) : List UInt8 :=
  input.take o ++ (image.drop o).take size ++ input.drop (o + size)

theorem length_copiedSlice {input : List UInt8} {size : Nat}
    (hslice : o + size ≤ image.length) (hfits : o + size ≤ input.length) :
    (copiedSlice input image o size).length = input.length := by
  rw [copiedSlice, List.length_append, List.length_append,
    length_slice hslice, List.length_take, List.length_drop]
  omega

theorem take_copiedSlice {input : List UInt8} {size : Nat}
    (htake : input.take o = image.take o)
    (hslice : o + size ≤ image.length) (hfits : o + size ≤ input.length) :
    (copiedSlice input image o size).take (o + size) =
      image.take (o + size) := by
  have hlen : (input.take o ++ (image.drop o).take size).length =
      o + size := by
    rw [List.length_append, length_slice hslice, List.length_take]
    omega
  rw [copiedSlice, List.take_left' hlen, htake, ← List.take_add]

theorem memcpyS_slice {input : List UInt8} {size : Nat} (hpos : 0 < size)
    (hslice : o + size ≤ image.length) (hfits : o + size ≤ input.length)
    (hmax : input.length ≤ memcpyMax) :
    memcpyS input o (Abi.ilp32.sub input.length o)
      ((image.drop o).take size) 0 ((image.drop o).take size).length =
        .ok (copiedSlice input image o size) := by
  have hlen := length_slice hslice
  have hmod : input.length < Abi.ilp32.sizeMod := by
    have := Abi.ilp32.sizeMod_ge
    simp only [memcpyMax] at hmax
    omega
  have hok : memcpyOk (input.length - o) size = true := by
    simp only [memcpyOk, Bool.and_eq_true, decide_eq_true_eq]
    omega
  have hcopy := memcpyS_eq input ((image.drop o).take size) hok
    (show 0 + size ≤ _ by omega) hfits
  rw [List.drop_zero, List.take_of_length_le (Nat.le_of_eq hlen)] at hcopy
  rw [Abi.sub_of_le (by omega) hmod, hlen, hcopy, copiedSlice]

/-- A slice that fits is copied. If it ends where the model input ends the
inference runs, on the image up to there. -/
theorem Sent.slice_fits (h : s.Sent M image o) {size : Nat} (hpos : 0 < size)
    (hslice : o + size ≤ image.length)
    (hlen : image.length < Abi.ilp32.sizeMod) (hfits : o + size ≤ M)
    (hmax : M ≤ memcpyMax) :
    ∃ s', s.clientSyncProcess infer (s.sliceAt image o size) =
        some (Retcode.success,
          resultAt infer M s.icHandle image (o + size), s') ∧
      s'.Sent M image (o + size) ∧
      Infers (inferenceAt M s.icHandle image (o + size)) s s' := by
  obtain ⟨config, hlookup, rfl, hinput, htake⟩ := h
  have hend : Abi.ilp32.sizeT (o + ((image.drop o).take size).length) =
      o + size := by
    rw [length_slice hslice]
    exact Abi.sizeT_of_lt (by omega)
  have hcopy := memcpyS_slice hpos hslice (hinput.symm ▸ hfits)
    (hinput.symm ▸ hmax)
  have hcopied := length_copiedSlice hslice (hinput.symm ▸ hfits)
  have hsame := take_copiedSlice htake hslice (hinput.symm ▸ hfits)
  rw [hinput] at hcopy hcopied
  simp only [clientSyncProcess, sliceAt, ICPlugin.syncProcess, hlookup, hend,
    if_neg (Nat.not_lt.mpr hfits), hcopy]
  have hfound := Finmap.lookup_insert s.plugin.handles (a := s.icHandle)
    (b := (⟨config.inputSize, copiedSlice config.input image o size⟩ :
      ICPluginConfig))
  by_cases hlast : o + size = config.inputSize
  · rw [if_pos hlast]
    have hall : copiedSlice config.input image o size =
        image.take config.inputSize := by
      rw [← hlast, ← hsame, hlast, ← hcopied, List.take_length]
    rw [resultAt, inferenceAt, if_pos hlast, if_pos hlast, ← hall]
    exact ⟨_, rfl, ⟨_, hfound, rfl, hcopied, hsame⟩, rfl, rfl, rfl, rfl⟩
  · rw [if_neg hlast]
    rw [resultAt, inferenceAt, if_neg hlast, if_neg hlast]
    exact ⟨_, rfl, ⟨_, hfound, rfl, hcopied, hsame⟩, rfl, rfl, rfl,
      (List.append_nil _).symm⟩

/-- A slice that does not fit, and one that `memcpy_s` does not copy, is
refused. -/
theorem Created.slice_refused (h : s.Created M) {size : Nat}
    (hslice : o + size ≤ image.length)
    (hlen : image.length < Abi.ilp32.sizeMod) (hM : M < Abi.ilp32.sizeMod)
    (hno : M < o + size ∨ o = 0 ∧ memcpyMax < M) :
    ∃ retCode, retCode ≠ Retcode.success ∧
      s.clientSyncProcess infer (s.sliceAt image o size) =
        some (retCode, none, s) := by
  obtain ⟨config, hlookup, rfl, hinput⟩ := h
  have hend : Abi.ilp32.sizeT (o + ((image.drop o).take size).length) =
      o + size := by
    rw [length_slice hslice]
    exact Abi.sizeT_of_lt (by omega)
  refine ⟨Retcode.algorithmProcessError, by decide, ?_⟩
  simp only [clientSyncProcess, sliceAt, ICPlugin.syncProcess, hlookup, hend]
  by_cases hlong : config.inputSize < o + size
  · rw [if_pos hlong]
    rfl
  · obtain ⟨rfl, hmax⟩ := hno.resolve_left hlong
    have hbad : memcpyOk (Abi.ilp32.sub config.inputSize 0)
        ((image.drop 0).take size).length = false := by
      rw [Abi.sub_of_le (Nat.zero_le _) hM, Nat.sub_zero, memcpyOk,
        decide_eq_false (Nat.not_le.mpr hmax)]
      simp
    rw [if_neg hlong, memcpyS, hbad]
    rfl

/-! ## The loop

The loop sends slices until one is refused or the image is at its end. What
was sent is in front of the input, whatever an earlier image has left behind
it. -/

theorem report_plugin (s : IcSdk ω) (event : IcEvent ω) :
    (s.report event).plugin = s.plugin ∧
      (s.report event).icHandle = s.icHandle := by
  unfold report
  split <;> exact ⟨rfl, rfl⟩

theorem Created.report (h : s.Created M) (event : IcEvent ω) :
    (s.report event).Created M := by
  obtain ⟨config, hlookup, hsize, hinput⟩ := h
  obtain ⟨hplugin, hhandle⟩ := report_plugin s event
  exact ⟨config, by rw [hplugin, hhandle, hlookup], hsize, hinput⟩

theorem Infers.report {new : List (Int64 × List UInt8)}
    (h : Infers new s s') (event : IcEvent ω) :
    (s'.report event).events = (s.report event).events := by
  simp only [IcSdk.report, h.hasCallback]
  split
  · exact congrArg (· ++ [event]) h.events
  · exact h.events

theorem slice_bounds (ho : o < image.length) :
    0 < min (image.length - o) maxIpcBufferSize ∧
      o + min (image.length - o) maxIpcBufferSize ≤ image.length := by
  simp only [maxIpcBufferSize]
  omega

/-- All of an image that fits is sent. The last slice decides. -/
theorem Sent.sendSlices_fits (hfits : image.length ≤ M)
    (hmax : M ≤ memcpyMax) (rounds : Nat) :
    ∀ (out : Option (IcResult ω)) {s : IcSdk ω} {o : Nat}, s.Sent M image o →
      o ≤ image.length → image.length - o < rounds →
      (o = image.length → out = resultAt infer M s.icHandle image o) →
      ∃ s', s.sendSlices infer image o out rounds =
          some (IcRetCode.success,
            resultAt infer M s.icHandle image image.length, s') ∧
        s'.Created M ∧
        Infers (if o < image.length then
          inferenceAt M s.icHandle image image.length else []) s s' := by
  have hlen : image.length < Abi.ilp32.sizeMod := by
    have := Abi.ilp32.sizeMod_ge
    simp only [memcpyMax] at hmax
    omega
  induction rounds with
  | zero => exact fun _ _ _ _ _ hrounds => absurd hrounds (Nat.not_lt_zero _)
  | succ rounds ih =>
      intro out s o h ho hrounds hout
      rw [sendSlices]
      split
      · next hlt =>
          obtain ⟨hpos, hslice⟩ := slice_bounds hlt
          obtain ⟨s₁, hrun, hsent, hinfers⟩ := h.slice_fits infer
            hpos hslice hlen (Nat.le_trans hslice hfits) hmax
          have hnext : Abi.ilp32.sizeT
              (o + min (image.length - o) maxIpcBufferSize) =
                o + min (image.length - o) maxIpcBufferSize :=
            Abi.sizeT_of_lt (Nat.lt_of_le_of_lt hslice hlen)
          obtain ⟨s₂, hrest, hcreated, hmore⟩ := ih _ hsent hslice (by omega)
            fun _ => by rw [hinfers.icHandle]
          rw [hinfers.icHandle] at hrest hmore
          rw [sliceAt] at hrun
          simp only [hrun, hnext, ne_eq, not_true_eq_false, if_false]
          refine ⟨s₂, hrest, hcreated, ?_⟩
          have hboth := hinfers.trans hmore
          by_cases hlast :
              o + min (image.length - o) maxIpcBufferSize < image.length
          · rw [if_pos hlast, inferenceAt, if_neg (by omega),
              List.nil_append] at hboth
            exact hboth
          · rw [if_neg hlast, List.append_nil,
              show o + min (image.length - o) maxIpcBufferSize =
                image.length by omega] at hboth
            exact hboth
      · next hnot =>
          have heq : o = image.length := by omega
          rw [hout heq, heq]
          exact ⟨s, rfl, h.created, .refl s⟩

/-- An image that is too long, or for which the model input is too large, is
refused at some slice, after an inference at most on its own bytes. -/
theorem Sent.sendSlices_refused (hlong : M < image.length)
    (hlen : image.length < Abi.ilp32.sizeMod) (hmax : M ≤ memcpyMax)
    (rounds : Nat) :
    ∀ (out : Option (IcResult ω)) {s : IcSdk ω} {o : Nat}, s.Sent M image o →
      o ≤ M → image.length - o < rounds →
      ∃ s' new, s.sendSlices infer image o out rounds =
          some (IcRetCode.failure, none,
            s'.report (.onError IcRetCode.failure)) ∧
        s'.Created M ∧ Infers new s s' ∧
        ∀ i ∈ new, i = (s.icHandle, image.take M) := by
  induction rounds with
  | zero => exact fun _ _ _ _ _ hrounds => absurd hrounds (Nat.not_lt_zero _)
  | succ rounds ih =>
      intro out s o h ho hrounds
      have hlt : o < image.length := by omega
      obtain ⟨hpos, hslice⟩ := slice_bounds hlt
      rw [sendSlices, if_pos hlt]
      by_cases hfits : o + min (image.length - o) maxIpcBufferSize ≤ M
      · obtain ⟨s₁, hrun, hsent, hinfers⟩ := h.slice_fits infer
          hpos hslice hlen hfits hmax
        have hnext : Abi.ilp32.sizeT
            (o + min (image.length - o) maxIpcBufferSize) =
              o + min (image.length - o) maxIpcBufferSize :=
          Abi.sizeT_of_lt (Nat.lt_of_le_of_lt hslice hlen)
        rw [sliceAt] at hrun
        simp only [hrun, hnext, ne_eq, not_true_eq_false, if_false]
        obtain ⟨s₂, new, hrest, hcreated, hmore, hown⟩ :=
          ih _ hsent hfits (by omega)
        refine ⟨s₂, _, hrest, hcreated, hinfers.trans hmore, fun i hi => ?_⟩
        rcases List.mem_append.mp hi with hi | hi
        · rw [inferenceAt] at hi
          split at hi
          · exact List.mem_singleton.mp hi
          · cases hi
        · rw [hown i hi, hinfers.icHandle]
      · obtain ⟨retCode, hfail, hrun⟩ :=
          h.created.slice_refused infer hslice hlen (by omega)
            (.inl (Nat.lt_of_not_le hfits))
        rw [sliceAt] at hrun
        simp only [hrun, if_pos hfail]
        exact ⟨s, [], rfl, h.created, .refl s, fun i hi => (nomatch hi)⟩

theorem Created.sendSlices_too_large (h : s.Created M)
    (hM : M < Abi.ilp32.sizeMod) (hmax : memcpyMax < M)
    (hlen : image.length < Abi.ilp32.sizeMod) (hpos : 0 < image.length)
    (out : Option (IcResult ω)) (rounds : Nat) :
    s.sendSlices infer image 0 out (rounds + 1) =
      some (IcRetCode.failure, none,
        s.report (.onError IcRetCode.failure)) := by
  obtain ⟨retCode, hfail, hrun⟩ := h.slice_refused infer
    (slice_bounds hpos).2 hlen hM (.inr ⟨rfl, hmax⟩)
  rw [sliceAt] at hrun
  rw [sendSlices, if_pos hpos]
  simp only [hrun, if_pos hfail]

/-- What is asked of a call. Success means that the image is what the model
takes; then there was one inference, on the image, and its result went to the
callback. An inference runs on the image of the call in any case. -/
structure Transferred (infer : List UInt8 → ω) (M : Nat)
    (image : List UInt8) (s : IcSdk ω) (retCode : Int) (s' : IcSdk ω) :
    Prop where
  success : retCode = IcRetCode.success ↔ image.length = M
  result : image.length = M →
    s'.plugin.invoked = s.plugin.invoked ++ [(s.icHandle, image)] ∧
      s'.events = (s.report (.onResult (infer image))).events
  own : ∃ new, s'.plugin.invoked = s.plugin.invoked ++ new ∧
    ∀ i ∈ new, i = (s.icHandle, image.take M)

/-- An image is not shorter than the model input, unless the model input is
more than `memcpy_s` fills, and the model input is not more than that if the
image is as long. -/
def Transfers (M n : Nat) : Prop :=
  (n < M → memcpyMax < M) ∧ (n = M → M ≤ memcpyMax)

instance (n : Nat) : Decidable (Transfers M n) :=
  inferInstanceAs (Decidable (_ ∧ _))

/-- A call with an image that fits: all is sent, and the code is success. -/
theorem Created.syncExecute_fits (h : s.Created M) (hpos : 0 < image.length)
    (hfits : image.length ≤ M) (hmax : M ≤ memcpyMax) :
    ∃ s₁ event, s.syncExecute infer image =
        some (IcRetCode.success, s₁.report event) ∧
      s₁.Created M ∧
      Infers (inferenceAt M s.icHandle image image.length) s s₁ ∧
      (image.length = M → event = .onResult (infer image)) := by
  obtain ⟨s₁, hrun, hcreated, hinfers⟩ := h.sent.sendSlices_fits
    infer hfits hmax (image.length + 1) none (Nat.zero_le _) (by omega)
    fun hzero => by omega
  rw [if_pos hpos] at hinfers
  rw [IcSdk.syncExecute, onSyncExecute, if_neg (by omega), hrun]
  by_cases heq : image.length = M
  · rw [resultAt, if_pos heq]
    refine ⟨s₁, .onResult (infer (image.take M)), ?_, hcreated, hinfers,
      fun _ => ?_⟩
    · have hsame : ¬ s₁.icHandle ≠ s.icHandle :=
        not_not.mpr hinfers.icHandle
      simp only [ne_eq, not_true_eq_false, if_false, if_neg hsame]
    · rw [← heq, List.take_length]
  · rw [resultAt, if_neg heq]
    exact ⟨s₁, _, rfl, hcreated, hinfers, fun h => absurd h heq⟩

theorem Created.syncExecute_refused (h : s.Created M)
    (hM : M < Abi.ilp32.sizeMod) (hpos : 0 < image.length)
    (hlen : image.length < Abi.ilp32.sizeMod)
    (hno : M < image.length ∨ memcpyMax < M) :
    ∃ s₁ new, s.syncExecute infer image =
        some (IcRetCode.failure, (s₁.report (.onError IcRetCode.failure)).report
          (.onError IcRetCode.failure)) ∧
      s₁.Created M ∧ Infers new s s₁ ∧
      ∀ i ∈ new, i = (s.icHandle, image.take M) := by
  rw [IcSdk.syncExecute, onSyncExecute, if_neg (by omega)]
  rcases Nat.lt_or_ge memcpyMax M with hmax | hmax
  · rw [h.sendSlices_too_large infer hM hmax hlen hpos]
    exact ⟨s, [], rfl, h, .refl s, fun i hi => (nomatch hi)⟩
  · obtain ⟨s₁, new, hrun, hcreated, hinfers, hown⟩ :=
      h.sent.sendSlices_refused infer
        (hno.resolve_right (Nat.not_lt.mpr hmax)) hlen hmax
        (image.length + 1) none (Nat.zero_le _) (by omega)
    rw [hrun]
    exact ⟨s₁, new, rfl, hcreated, hinfers, hown⟩

/-- A call does what is asked of it exactly where its image transfers. -/
theorem Created.transferred_iff (h : s.Created M)
    (hM : M < Abi.ilp32.sizeMod) (hpos : 0 < image.length)
    (hlen : image.length < Abi.ilp32.sizeMod) :
    ∃ retCode s', s.syncExecute infer image = some (retCode, s') ∧
      s'.Created M ∧
      (Transferred infer M image s retCode s' ↔
        Transfers M image.length) := by
  by_cases hfits : image.length ≤ M ∧ M ≤ memcpyMax
  · obtain ⟨s₁, event, hrun, hcreated, hinfers, hevent⟩ :=
      h.syncExecute_fits infer hpos hfits.1 hfits.2
    refine ⟨_, _, hrun, hcreated.report event, fun hall => ?_, fun hok => ?_⟩
    · have heq := hall.success.mp rfl
      exact ⟨fun hlt => absurd heq (Nat.ne_of_lt hlt), fun _ => hfits.2⟩
    · have heq : image.length = M := by
        rcases Nat.lt_or_eq_of_le hfits.1 with hlt | heq
        · exact absurd (hok.1 hlt) (Nat.not_lt.mpr hfits.2)
        · exact heq
      have htake : image.take M = image := by rw [← heq, List.take_length]
      rw [inferenceAt, if_pos heq, htake] at hinfers
      rw [hevent heq]
      obtain ⟨hplugin, _⟩ := report_plugin s₁ (.onResult (infer image))
      refine ⟨⟨fun _ => heq, fun _ => rfl⟩, fun _ => ⟨?_, ?_⟩,
        [(s.icHandle, image)], ?_, fun i hi => ?_⟩
      · rw [hplugin, hinfers.invoked]
      · exact hinfers.report _
      · rw [hplugin, hinfers.invoked]
      · rw [List.mem_singleton.mp hi, htake]
  · obtain ⟨s₁, new, hrun, hcreated, hinfers, hown⟩ :=
      h.syncExecute_refused infer hM hpos hlen (by omega)
    refine ⟨_, _, hrun, (hcreated.report _).report _, fun hall => ?_,
      fun hok => ?_⟩
    · have hne : image.length ≠ M := fun heq =>
        absurd (hall.success.mpr heq) (by decide)
      exact ⟨fun hlt => by omega, fun heq => absurd heq hne⟩
    · have hne : image.length ≠ M := fun heq => by
        have := hok.2 heq
        omega
      refine ⟨⟨fun hcode => absurd hcode (by decide), fun heq =>
        absurd heq hne⟩, fun heq => absurd heq hne, new, ?_, hown⟩
      rw [(report_plugin _ _).1, (report_plugin _ _).1, hinfers.invoked]

theorem Created.take {image : List UInt8} (h : s.Created M)
    (hM : M < Abi.ilp32.sizeMod)
    (hstep : (imageMachine infer M).step s image = some s') :
    s'.Created M := by
  simp only [imageMachine] at hstep
  split at hstep
  · next hlen =>
      rcases Nat.eq_zero_or_pos image.length with hzero | hpos
      · rw [IcSdk.syncExecute, onSyncExecute, if_pos hzero] at hstep
        cases hstep
        exact h.report _
      · obtain ⟨_, s₁, hrun, hcreated, _⟩ :=
          h.transferred_iff infer hM hpos hlen
        rw [hrun] at hstep
        cases hstep
        exact hcreated
  · cases hstep

end IcSdk

/-- Whatever was sent before, a call with an image does what is asked of it
if and only if the image transfers. -/
theorem reach_transferred_iff {s : IcSdk ω}
    (hs : (imageMachine infer M).Reach Machine.anyStep s)
    (hM : M < Abi.ilp32.sizeMod) {image : List UInt8}
    (hpos : 1 ≤ image.length) (hlen : image.length < Abi.ilp32.sizeMod) :
    ∃ retCode s', s.syncExecute infer image = some (retCode, s') ∧
      (IcSdk.Transferred infer M image s retCode s' ↔
        IcSdk.Transfers M image.length) := by
  have h : s.Created M := by
    refine hs.invariant (fun _ hs => hs) fun s image s' h _ hstep => ?_
    exact IcSdk.Created.take infer h hM hstep
  obtain ⟨retCode, s', hrun, _, hiff⟩ :=
    h.transferred_iff infer hM hpos hlen
  exact ⟨retCode, s', hrun, hiff⟩

/-- A model that takes some number of bytes, and whose result is their
number. -/
def sampleSdk (inputSize : Nat) : IcSdk Nat where
  icHandle := 5
  hasCallback := true
  events := []
  plugin := ⟨(∅ : Table Int64 ICPluginConfig).insert 5
    ⟨inputSize, List.replicate inputSize 0⟩, []⟩

theorem sampleSdk_created (inputSize : Nat) :
    (sampleSdk inputSize).Created inputSize := by
  refine ⟨⟨inputSize, List.replicate inputSize 0⟩, ?_, rfl,
    List.length_replicate⟩
  exact Finmap.lookup_insert _

/-- After an image of one byte, one of two slices is sent. -/
theorem reach_transferred_iff_sample :
    ∃ (s s' : IcSdk Nat) (image : List UInt8) (retCode : Int),
      (sampleSdk 30000).syncExecute List.length [7] =
        some (IcRetCode.success, s) ∧
      image.length = 30000 ∧
      s.syncExecute List.length image = some (retCode, s') ∧
      IcSdk.Transferred List.length 30000 image s retCode s' := by
  obtain ⟨s₁, event, hshort, -⟩ :=
    (sampleSdk_created 30000).syncExecute_fits List.length
      (show 0 < [7].length by decide) (by decide) (by decide)
  have hs : (imageMachine List.length 30000).Reach Machine.anyStep
      (s₁.report event) := by
    refine (Machine.Reach.start (sampleSdk_created 30000)).step
      (show Machine.anyStep _ [7] from trivial) ?_
    simp only [imageMachine, hshort]
    rfl
  obtain ⟨image, hlen⟩ : ∃ image : List UInt8, image.length = 30000 :=
    ⟨List.replicate 30000 7, List.length_replicate⟩
  obtain ⟨retCode, s', hrun, hiff⟩ :=
    reach_transferred_iff List.length hs (by decide)
      (show 1 ≤ image.length by omega) (by rw [hlen]; decide)
  have hall : IcSdk.Transfers 30000 image.length := by
    rw [hlen]
    decide
  exact ⟨_, s', image, retCode, hshort, hlen, hrun, hiff.mpr hall⟩

/-- An image of one byte is answered with success, and nothing was
inferred. -/
theorem shortImage_not_transferred :
    ¬ ∀ (s : IcSdk Nat),
      (imageMachine List.length 2).Reach Machine.anyStep s →
      ∀ image : List UInt8, 1 ≤ image.length →
        image.length < Abi.ilp32.sizeMod →
        ∃ retCode s', s.syncExecute List.length image = some (retCode, s') ∧
          IcSdk.Transferred List.length 2 image s retCode s' := by
  intro h
  obtain ⟨retCode, s', hrun, hall⟩ :=
    h (sampleSdk 2) (.start (sampleSdk_created 2)) [7] (by decide)
      (by decide)
  have hcode : ((sampleSdk 2).syncExecute List.length [7]).map (·.1) =
      some IcRetCode.success := by decide
  rw [hrun] at hcode
  exact absurd (hall.success.mp (Option.some.inj hcode)) (by decide)

end AiEngine.Ref
