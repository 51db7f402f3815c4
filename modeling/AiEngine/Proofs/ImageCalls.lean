import AiEngine.Proofs.Classifiers

/-!
# What becomes of the images of a user

The loop of `OnSyncExecute` is followed slice by slice. As long as the image
is not sent to the end of the model input, this begins as the image does, so
that whatever earlier images have left in it is gone when the model is asked.
An error ends the call. Calls follow one another in any order with what the
plugin is asked by others, and each takes the classifier on.
-/

namespace AiEngine.Ref

open AiEngine.Lib

/-! ## An image

`Sending` is where the client's loop is between two slices: how many the
plugin has stored, and that the earlier ones are in the model input in front
of the next. -/

/-- The plugin has the input for the handle of the SDK, and its callback had
the calls. -/
structure IcTracks (m : IcModel) (before : List (Int × List UInt8))
    (calls : List (IcEvent (List Int32))) (input : List UInt8)
    (s : IcPipeline) (c : Classifier) : Prop where
  icHandle : s.sdk.icHandle = m.handle
  callback : s.sdk.callback = c.callback
  events : s.sdk.events = calls ++ c.events
  plugin : ICAttends m before input c s.plugin

section

variable {m : IcModel} {before : List (Int × List UInt8)}
variable {calls : List (IcEvent (List Int32))} {input image : List UInt8}
variable {env : Nat → IcSliceEnv} {c : Classifier} {s s' : IcPipeline}
variable {H : HeapAlgorithms heapComparer} {k : Nat} {retCode : Int}
variable {outputInfo : DataInfo}

theorem IcTracks.report (h : IcTracks m before calls input s c)
    (event : IcEvent (List Int32)) :
    IcTracks m before calls input (s.report event) (c.report [event]) := by
  have hcallback := h.callback
  rw [IcPipeline.report, IcSdkImpl.report, Classifier.report, hcallback]
  split
  · refine ⟨h.icHandle, rfl, ?_, h.plugin.worker, h.plugin.length,
      h.plugin.outputSize, h.plugin.adapter, h.plugin.invoked⟩
    show s.sdk.events ++ [event] = calls ++ (c.events ++ [event])
    rw [h.events, List.append_assoc]
  · exact h

theorem IcTracks.withPlugin (h : IcTracks m before calls input s c)
    {input' : List UInt8} {c' : Classifier} {p' : ICInference}
    (hcallback : c'.callback = c.callback) (hevents : c'.events = c.events)
    (hplugin : ICAttends m before input' c' p') :
    IcTracks m before calls input' { s with plugin := p' } c' :=
  ⟨h.icHandle, hcallback.symm ▸ h.callback, hevents.symm ▸ h.events, hplugin⟩

variable (m before calls image env c) in
/-- What the loop of `OnSyncExecute` has done after `k` slices. -/
inductive Sending (k : Nat) (s : IcPipeline) : DataInfo → Prop where
  | partly {input : List UInt8}
      (hless : sliceEnd image k < m.inputSize ∨ k = 0)
      (htake : input.take (sliceEnd image k) = image.take (sliceEnd image k))
      (h : IcTracks m before calls input s
        (c.serve m (othersBefore env k))) :
      Sending k s ⟨.null, 0⟩
  | wholly {input : List UInt8} {items : List IcItem}
      {outputInfo : DataInfo} (hk : 0 < k)
      (hend : sliceEnd image k = m.inputSize)
      (hbest : IsTopK (m.scores (env (k - 1)).process)
        (c.serve m (othersBefore env k)).outputSize items)
      (hencode : processEncodeItems .ilp32 (env (k - 1)).process.encodeHeap
        ⟨.null, 0⟩ (intptr .ilp32 m.handle) items = .ok outputInfo)
      (h : IcTracks m before calls input s
        ((c.serve m (othersBefore env k)).give (image.take m.inputSize))) :
      Sending k s outputInfo

variable (m before calls image env c) in
/-- What `OnSyncExecute` has done when it returns. -/
inductive Sends : Int → DataInfo → IcPipeline → Prop where
  | failed {k : Nat} {retCode : Int} {outputInfo : DataInfo}
      {s' : IcPipeline} {input : List UInt8} (hk : k ≤ sliceCount image)
      (hcode : retCode ≠ IcRetCode.success)
      (h : IcTracks m before calls input s'
        ((c.serve m (othersBefore env k)).report [.onError retCode])) :
      Sends retCode outputInfo s'
  | unanswered {j k : Nat} {retCode : Int} {outputInfo : DataInfo}
      {s' : IcPipeline} {input : List UInt8} (hjk : j ≤ k)
      (hk : k ≤ sliceCount image) (hj : sliceEnd image j = m.inputSize)
      (hpos : 0 < m.inputSize) (hcode : retCode ≠ IcRetCode.success)
      (h : IcTracks m before calls input s'
        (((c.serve m (othersBefore env k)).give
          (image.take m.inputSize)).report [.onError retCode])) :
      Sends retCode outputInfo s'
  | short {s' : IcPipeline} {input : List UInt8}
      (hless : image.length < m.inputSize)
      (h : IcTracks m before calls input s'
        (c.serve m (othersBefore env (sliceCount image)))) :
      Sends IcRetCode.success ⟨.null, 0⟩ s'
  | answered {s' : IcPipeline} {input : List UInt8} {items : List IcItem}
      {heap : Nat → Bool} {outputInfo : DataInfo}
      (hsize : image.length = m.inputSize)
      (hbest : IsTopK (m.scores (env (sliceCount image - 1)).process)
        (c.serve m (othersBefore env (sliceCount image))).outputSize items)
      (hencode : processEncodeItems .ilp32 heap ⟨.null, 0⟩
        (intptr .ilp32 m.handle) items = .ok outputInfo)
      (h : IcTracks m before calls input s'
        ((c.serve m (othersBefore env (sliceCount image))).give image)) :
      Sends IcRetCode.success outputInfo s'

theorem sliceEnd_pos (hpos : 0 < image.length) (hk : 0 < k) :
    0 < sliceEnd image k := by
  simp only [sliceEnd, maxIpcBufferSize]
  omega

theorem Sending.stop (h : Sending m before calls image env c k s outputInfo)
    (hpos : 0 < image.length) (hk : k ≤ sliceCount image)
    (hcode : retCode ≠ IcRetCode.success) (outputInfo' : DataInfo) :
    Sends m before calls image env c retCode outputInfo'
      (s.report (.onError retCode)) := by
  cases h with
  | partly hless htake h => exact .failed hk hcode (h.report _)
  | wholly hk' hend hbest hencode h =>
      have hM : 0 < m.inputSize := hend ▸ sliceEnd_pos hpos hk'
      exact .unanswered (Nat.le_refl k) hk hend hM hcode (h.report _)

/-- A copied slice that ends where the model input ends has made it the
image. -/
theorem copiedSlice_all {o size : Nat} (hinput : input.length = m.inputSize)
    (htake : input.take o = image.take o) (hslice : o + size ≤ image.length)
    (hend : o + size = m.inputSize) :
    IcSdk.copiedSlice input image o size = image.take m.inputSize := by
  have hfits : o + size ≤ input.length := by omega
  have hlen := IcSdk.length_copiedSlice hslice hfits
  have hsame := IcSdk.take_copiedSlice htake hslice hfits
  rw [hend] at hsame
  rw [← hsame, List.take_of_length_le]
  omega

theorem Sending.next (h : Sending m before calls image env c k s outputInfo)
    (hapart : ∀ call ∈ (env k).others, ¬ call.Concerns m.handle)
    (hpos : 0 < image.length) (himage : image.length < Abi.ilp32.sizeMod)
    (hmore : sliceEnd image k < image.length) {heap : Nat → Bool}
    {inputInfo outputInfo' : DataInfo} {p' : ICInference}
    (hencode : encodeSlice heap ⟨.null, 0⟩ s.sdk.icHandle (sliceEnd image k)
      (slice image (sliceEnd image k)
        (min (image.length - sliceEnd image k) maxIpcBufferSize)) =
          .ok inputInfo)
    (hrun : IcPipeline.aieClientSyncProcess H s.plugin inputInfo (env k) =
      .ok (retCode, outputInfo', p')) :
    retCode ≠ Retcode.success ∧
        Sends m before calls image env c IcRetCode.failure outputInfo'
          (IcPipeline.report { s with plugin := p' }
            (.onError IcRetCode.failure)) ∨
      retCode = Retcode.success ∧
        Sending m before calls image env c (k + 1) { s with plugin := p' }
          outputInfo' := by
  have hfailed : IcRetCode.failure ≠ IcRetCode.success := by decide
  obtain ⟨-, -, hnext, hcount⟩ := sliceEnd_succ hmore
  obtain ⟨hsome, hslice⟩ := IcSdk.slice_bounds hmore
  cases h with
  | partly hless htake h =>
      rw [h.icHandle] at hencode
      have hends := h.plugin.aieClientSyncProcess hsome hslice himage hapart
        hencode hrun
      rw [Classifier.serve_next] at hends
      cases hends with
      | failed hcode h₂ =>
          exact .inl ⟨hcode, .failed hcount hfailed
            ((h.withPlugin (by simp) (by simp) h₂).report _)⟩
      | unanswered hend hcode h₂ =>
          rw [copiedSlice_all h.plugin.length htake hslice hend] at h₂
          exact .inl ⟨hcode, .unanswered (Nat.le_refl _) hcount
            (hnext.trans hend) (by omega) hfailed
            ((h.withPlugin (by simp) (by simp) h₂).report _)⟩
      | copied hend h₂ =>
          have htake₂ := IcSdk.take_copiedSlice htake hslice
            (h.plugin.length.symm ▸ Nat.le_of_lt hend)
          rw [← hnext] at htake₂ hend
          exact .inr ⟨rfl, .partly (.inl hend) htake₂
            (h.withPlugin (by simp) (by simp) h₂)⟩
      | answered hend hbest hencode₂ h₂ =>
          rw [copiedSlice_all h.plugin.length htake hslice hend] at h₂
          exact .inr ⟨rfl, .wholly (Nat.succ_pos k) (hnext.trans hend) hbest
            hencode₂ (h.withPlugin (by simp) (by simp) h₂)⟩
  | wholly hk hend hbest hencode' h =>
      -- The model input has ended before, so that the slice is refused.
      rw [h.icHandle] at hencode
      have hends := h.plugin.aieClientSyncProcess hsome hslice himage hapart
        hencode hrun
      rw [Classifier.serve_give, Classifier.serve_next] at hends
      cases hends with
      | failed hcode h₂ =>
          exact .inl ⟨hcode, .unanswered (Nat.le_succ k) hcount hend
            (hend ▸ sliceEnd_pos hpos hk) hfailed
            ((h.withPlugin (by simp) (by simp) h₂).report _)⟩
      | unanswered hover hcode h₂ => omega
      | copied hover h₂ => omega
      | answered hover hbest₂ hencode₂ h₂ => omega

theorem Sending.done (h : Sending m before calls image env c k s outputInfo)
    (hpos : 0 < image.length) (hk : k ≤ sliceCount image)
    (hend : ¬ sliceEnd image k < image.length) :
    Sends m before calls image env c IcRetCode.success outputInfo s := by
  obtain ⟨hall, rfl⟩ := sliceEnd_all hk hend
  cases h with
  | partly hless htake h =>
      refine .short ?_ h
      rcases hless with hless | hzero
      · rwa [hall] at hless
      · rw [hzero] at hall
        simp only [sliceEnd] at hall
        omega
  | wholly hk' hend hbest hencode h =>
      have hsize : image.length = m.inputSize := hall ▸ hend
      rw [← hsize, List.take_length] at h
      exact .answered hsize hbest hencode h

theorem Sending.sendSlices
    (hapart : ∀ k, ∀ call ∈ (env k).others, ¬ call.Concerns m.handle)
    (hpos : 0 < image.length) (himage : image.length < Abi.ilp32.sizeMod)
    (rounds : Nat) :
    ∀ {k : Nat} {s : IcPipeline} {out outputInfo : DataInfo},
      Sending m before calls image env c k s out → k ≤ sliceCount image →
      s.sendSlices H env image (sliceEnd image k) out rounds =
        .ok (retCode, outputInfo, s') →
      Sends m before calls image env c retCode outputInfo s' := by
  induction rounds with
  | zero =>
      intro k s out outputInfo _ _ hrun
      cases hrun
  | succ rounds ih =>
      intro k s out outputInfo h hk hrun
      simp only [IcPipeline.sendSlices] at hrun
      split at hrun
      swap
      · next hend =>
          cases hrun
          exact h.done hpos hk hend
      next hmore =>
      obtain ⟨-, hnumber, hnext, hcount⟩ := sliceEnd_succ hmore
      obtain ⟨-, hslice⟩ := IcSdk.slice_bounds hmore
      rw [hnumber, ← slice, Abi.sizeT_of_lt (by omega), ← hnext] at hrun
      split at hrun
      · cases hrun
      · cases hrun
        exact h.stop hpos hk (by decide) _
      next inputInfo hencode =>
      obtain ⟨⟨code, out₁, p'⟩, hsync, hrun⟩ := Outcome.bind_eq_ok.mp hrun
      dsimp only at hrun
      rcases h.next (hapart k) hpos himage hmore hencode hsync with
        ⟨hcode, hsends⟩ | ⟨rfl, hsent⟩
      · rw [if_pos hcode] at hrun
        cases hrun
        exact hsends
      · rw [if_neg (not_not.mpr rfl)] at hrun
        exact ih hsent hcount hrun

theorem IcTracks.sent (h : IcTracks m before calls input s c) :
    Sending m before calls image env c 0 s ⟨.null, 0⟩ := by
  refine .partly (.inr rfl) ?_ h
  simp [sliceEnd]

end

/-- The image of a call. -/
def imageOf (inputData : Option (List UInt8)) : List UInt8 :=
  inputData.getD []

/-- What a step leads to. -/
inductive Classifier.Steps (m : IcModel) (c : Classifier) :
    IcStep → Classifier → Prop where
  | setCallback : Steps m c .setCallback { c with callback := true }
  | syncExecute {inputData : Option (List UInt8)} {env : IcImageEnv}
      {retCode : Int} {c' : Classifier}
      (h : Classifies m env (imageOf inputData) c retCode c') :
      Steps m c (.syncExecute inputData env) c'
  | others (calls : List (ICCall .ilp32)) :
      Steps m c (.others calls) (c.serve m calls)

/-- The classifiers that the steps can lead to. -/
inductive Classifier.Runs (m : IcModel) (callback : Bool) :
    List IcStep → Classifier → Prop where
  | created : Runs m callback [] (created callback)
  | step {is : List IcStep} {i : IcStep} {c c' : Classifier}
      (hruns : Runs m callback is c) (hstep : c.Steps m i c') :
      Runs m callback (is ++ [i]) c'

/-- Others do not concern themselves with the handle. -/
def IcStep.Apart (handle : Int) : IcStep → Prop
  | .setCallback => True
  | .syncExecute _ env =>
      ∀ k, ∀ call ∈ (env.slice k).others, ¬ call.Concerns handle
  | .others calls => ∀ call ∈ calls, ¬ call.Concerns handle

section

variable {m : IcModel} {before : List (Int × List UInt8)}
variable {calls : List (IcEvent (List Int32))} {input : List UInt8}
variable {c : Classifier} {s s' : IcPipeline}
variable {H : HeapAlgorithms heapComparer}

theorem onSyncExecute_empty {env : Nat → IcSliceEnv}
    {inputData : Option (List UInt8)} (hempty : (imageOf inputData).length = 0) :
    s.onSyncExecute H env inputData =
      .ok (IcRetCode.nullParam, ⟨.null, 0⟩, s) := by
  cases inputData with
  | none => rfl
  | some image => exact if_pos hempty

theorem onSyncExecute_image {env : Nat → IcSliceEnv}
    {inputData : Option (List UInt8)} (hpos : 0 < (imageOf inputData).length) :
    s.onSyncExecute H env inputData =
      s.sendSlices H env (imageOf inputData) (sliceEnd (imageOf inputData) 0)
        ⟨.null, 0⟩ ((imageOf inputData).length + 1) := by
  have hstart : sliceEnd (imageOf inputData) 0 = 0 := by simp [sliceEnd]
  rw [hstart]
  cases inputData with
  | none => exact absurd hpos (Nat.lt_irrefl 0)
  | some image => exact if_neg (Nat.ne_of_gt hpos)

theorem items_countable {env : ICProcessEnv} {topK : Nat}
    {items : List IcItem} (hbest : IsTopK (m.scores env) topK items) :
    2 * items.length < Abi.ilp32.sizeMod := by
  have hscores := m.scores_lt
  have hlen := hbest.length
  rw [IcModel.scores, List.length_map, List.length_range] at hlen
  omega

/-- The report of `SyncExecute` after that of `OnSyncExecute`. -/
theorem IcTracks.reportAgain {c₁ : Classifier} {retCode : Int}
    (h : IcTracks m before calls input s (c₁.report [.onError retCode])) :
    IcTracks m before calls input (s.report (.onError IcRetCode.failure))
      (c₁.report [.onError retCode, .onError IcRetCode.failure]) := by
  have hboth := c₁.report_append [.onError retCode]
    [.onError IcRetCode.failure]
  rw [List.singleton_append] at hboth
  rw [hboth]
  exact h.report _

theorem IcTracks.syncExecute (h : IcTracks m before calls input s c)
    {env : IcImageEnv} {inputData : Option (List UInt8)}
    (hapart : ∀ k, ∀ call ∈ (env.slice k).others, ¬ call.Concerns m.handle)
    (himage : (imageOf inputData).length < Abi.ilp32.sizeMod) {retCode : Int}
    (hrun : s.syncExecute H env inputData = .ok (retCode, s')) :
    ∃ c' input', Classifies m env (imageOf inputData) c retCode c' ∧
      IcTracks m before calls input' s' c' := by
  obtain ⟨⟨code, outputInfo, s₁⟩, hsend, hrun⟩ := Outcome.bind_eq_ok.mp hrun
  dsimp only at hrun
  rcases Nat.eq_zero_or_pos (imageOf inputData).length with hempty | hpos
  · rw [onSyncExecute_empty hempty] at hsend
    cases hsend
    rw [if_pos (.inl rfl)] at hrun
    cases hrun
    exact ⟨_, _, .unheard (Nat.zero_le _) (fun hcode => by cases hcode)
      (.once _), h.report _⟩
  rw [onSyncExecute_image hpos] at hsend
  have hstart : Sending m before calls (imageOf inputData) env.slice c 0 s
      ⟨.null, 0⟩ := h.sent
  have hsends := hstart.sendSlices hapart hpos himage _
    (Nat.zero_le _) hsend
  cases hsends with
  | failed hk hcode h₁ =>
      rw [if_pos (.inr (.inr hcode))] at hrun
      cases hrun
      exact ⟨_, _, .unheard hk (fun hs => absurd hs hcode) (.twice hcode),
        h₁.reportAgain⟩
  | unanswered hjk hk hj hM hcode h₁ =>
      rw [if_pos (.inr (.inr hcode))] at hrun
      cases hrun
      exact ⟨_, _, .unanswered hjk hk hj hM hcode (.twice hcode),
        h₁.reportAgain⟩
  | short hless h₁ =>
      rw [if_pos (.inl rfl)] at hrun
      cases hrun
      exact ⟨_, _, .unheard (Nat.le_refl _) (fun _ => hless) (.once _),
        h₁.report _⟩
  | @answered s₁ input₁ items heap outputInfo hsize hbest hencode h₁ =>
      have hcount := items_countable hbest
      obtain ⟨hdata, hlength, hdecode⟩ :=
        decodeItems_carried m.range hcount hencode env.decodeHeap
      have hvalid : ¬ (outputInfo.data = .null ∨ outputInfo.length ≤ 0 ∨
          IcRetCode.success ≠ IcRetCode.success) :=
        not_or.mpr ⟨hdata, not_or.mpr ⟨hlength, not_not.mpr rfl⟩⟩
      rw [if_neg hvalid] at hrun
      have hall : sliceEnd (imageOf inputData)
          (sliceCount (imageOf inputData)) = (imageOf inputData).length :=
        (sliceEnd_all (Nat.le_refl _) (by
          simp only [sliceEnd, sliceCount, maxIpcBufferSize]
          omega)).1
      rcases hdecode with hfail | hsame
      · rw [hfail] at hrun
        cases hrun
        have hgiven : (imageOf inputData).take m.inputSize =
            imageOf inputData := by
          rw [← hsize, List.take_length]
        have h₂ : IcTracks m before calls input₁ s₁
            ((c.serve m (othersBefore env.slice
              (sliceCount (imageOf inputData)))).give
                ((imageOf inputData).take m.inputSize)) := by
          rw [hgiven]
          exact h₁
        exact ⟨_, _, .unanswered (Nat.le_refl _) (Nat.le_refl _)
          (hall.trans hsize) (hsize ▸ hpos) (by decide) (.once _),
          h₂.report _⟩
      · rw [hsame] at hrun
        dsimp only at hrun
        rw [if_neg (not_not.mpr h₁.icHandle), int32s_itemArray] at hrun
        cases hrun
        exact ⟨_, _, .delivered hsize hbest, h₁.report _⟩

theorem IcTracks.step (h : IcTracks m before calls input s c) {i : IcStep}
    (hi : i.Apart m.handle) (hstep : s.step H i = some s') :
    ∃ c' input', c.Steps m i c' ∧ IcTracks m before calls input' s' c' := by
  cases i with
  | setCallback =>
      cases hstep
      exact ⟨_, _, .setCallback, h.icHandle, rfl, h.events, h.plugin.worker,
        h.plugin.length, h.plugin.outputSize, h.plugin.adapter,
        h.plugin.invoked⟩
  | syncExecute inputData env =>
      simp only [IcPipeline.step] at hstep
      split at hstep
      · cases hstep
      next hsize =>
      split at hstep
      · next retCode s₁ hrun =>
          cases hstep
          obtain ⟨c', input', hclassifies, htracks⟩ :=
            h.syncExecute hi (Nat.lt_of_not_le hsize) hrun
          exact ⟨c', input', .syncExecute hclassifies, htracks⟩
      · cases hstep
      · cases hstep
  | others others =>
      simp only [IcPipeline.step] at hstep
      split at hstep
      · next p' hrun =>
          cases hstep
          exact ⟨_, _, .others others, h.withPlugin (by simp) (by simp)
            (h.plugin.serve others hi hrun)⟩
      · cases hstep
      · cases hstep

theorem IcTracks.run {created : IcPipeline} (is : List IcStep) :
    ∀ {done : List IcStep} {s : IcPipeline} {c : Classifier}
      {input : List UInt8}, IcTracks m before calls input s c →
      Classifier.Runs m created.sdk.callback done c →
      (∀ i ∈ is, i.Apart m.handle) →
      (classifyingMachine H created).run Machine.anyStep s is = some s' →
      ∃ c' input', Classifier.Runs m created.sdk.callback (done ++ is) c' ∧
        IcTracks m before calls input' s' c' := by
  induction is with
  | nil =>
      intro done s c input h hruns _ hrun
      cases hrun
      rw [List.append_nil]
      exact ⟨c, input, hruns, h⟩
  | cons i is ih =>
      intro done s c input h hruns hapart hrun
      rw [Machine.run, if_pos (show Machine.anyStep s i from trivial)] at hrun
      split at hrun
      · next s₁ hstep =>
          obtain ⟨c₁, input₁, hsteps, h₁⟩ :=
            h.step (hapart i (List.mem_cons_self ..)) hstep
          have hmore := ih h₁ (hruns.step hsteps)
            (fun i hi => hapart i (List.mem_cons_of_mem _ hi)) hrun
          rwa [List.append_assoc, List.singleton_append] at hmore
      · cases hrun

end

end AiEngine.Ref
