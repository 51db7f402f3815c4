import AiEngine.Proofs.IcMessages
import AiEngine.Proofs.ImageSlices

/-!
# A handle and its classifier

`Classifier` is one handle as its model and the callback of its user know it:
how many scores it is to tell, what the model was given, and the calls of the
callback. An image takes it on in one of three ways. The model is not asked,
or it is asked and its answer does not arrive, and the callback gets one error
or two; or the callback gets the labels and the scores of the best.

`ICAttends` says that the plugin has an input for the handle and that its
model was given what the classifier says. Others who leave the handle alone
do not change this, but for the number of scores, and the request with a
slice ends in one of four ways.
-/

namespace AiEngine.Ref

open AiEngine.Lib

/-- A handle with what does not change of its model. -/
structure IcModel where
  handle : Int
  inputSize : Nat
  outputAddr : Nat
  maxOutputSize : Nat
  range : IntptrRange .ilp32 handle
  inputSize_lt : inputSize < Abi.ilp32.sizeMod
  scores_lt : 4 * maxOutputSize < Abi.ilp32.sizeMod

/-- The entry of `handles_`. -/
def IcModel.worker (m : IcModel) (outputSize : Nat) (input : List UInt8) :
    ICWorker :=
  ⟨m.inputSize, outputSize, input, m.outputAddr, m.maxOutputSize⟩

/-- The scores that `Invoke` leaves. -/
def IcModel.scores (m : IcModel) (env : ICProcessEnv) : List Int32 :=
  (List.range m.maxOutputSize).map env.output

/-- The call is a request for the handle, or releases it. -/
def ICCall.Concerns (handle : Int) : ICCall .ilp32 → Prop
  | .prepare _ _ => False
  | .syncProcess none _ => False
  | .syncProcess (some inputInfo) env =>
      ∃ slicedIndex slicedImage,
        decodeSlice .ilp32 env.decodeHeap inputInfo =
          .ok (handle, slicedIndex, slicedImage)
  | .setOption _ _ _ => False
  | .getOption _ _ _ _ _ => False
  | .release _ inputInfo env =>
      decodeHandle .ilp32 env.heap inputInfo = .ok handle

/-- The number of scores that the call sets for the handle, if it is one. -/
def ICCall.newOutputSize (m : IcModel) : ICCall .ilp32 → Option Nat
  | .setOption optionType inputInfo heap =>
      if inputInfo.data = .null ∨ inputInfo.length ≤ 0 then none
      else if optionType ≠ optionSetOutputSize then none
      else
        match decodeUInt32 .ilp32 heap inputInfo with
        | .fault => none
        | .fail _ => none
        | .ok (handle, outputSize) =>
            if handle = m.handle ∧ 0 < outputSize ∧
                outputSize ≤ m.maxOutputSize then some outputSize
            else none
  | _ => none

/-! ## Classifiers

What the plugin and the callback come to for one handle: the number of scores,
the images that were given to the model, and what was reported. A classifier
has no messages and no bytes. -/

/-- A handle as its model and its callback know it. -/
structure Classifier where
  outputSize : Nat
  given : List (List UInt8)
  callback : Bool
  events : List (IcEvent (List Int32))

namespace Classifier

/-- What `Create` leaves. -/
def created (callback : Bool) : Classifier :=
  ⟨ICPlugin.defaultOutputSize, [], callback, []⟩

/-- The plugin answers others. -/
def serve (m : IcModel) (c : Classifier) (calls : List (ICCall .ilp32)) :
    Classifier :=
  calls.foldl (fun c call => { c with
    outputSize := (call.newOutputSize m).getD c.outputSize }) c

/-- The model is given an input. -/
def give (c : Classifier) (input : List UInt8) : Classifier :=
  { c with given := c.given ++ [input] }

/-- The callback, if there is one, is called. -/
def report (c : Classifier) (events : List (IcEvent (List Int32))) :
    Classifier :=
  if c.callback then { c with events := c.events ++ events } else c

theorem serve_frame (m : IcModel) (calls : List (ICCall .ilp32)) :
    ∀ c : Classifier, (c.serve m calls).given = c.given ∧
      (c.serve m calls).callback = c.callback ∧
      (c.serve m calls).events = c.events := by
  induction calls with
  | nil => exact fun _ => ⟨rfl, rfl, rfl⟩
  | cons call calls ih => exact fun c => ih _

@[simp] theorem serve_given (m : IcModel) (c : Classifier)
    (calls : List (ICCall .ilp32)) :
    (c.serve m calls).given = c.given := (serve_frame m calls c).1

@[simp] theorem serve_callback (m : IcModel) (c : Classifier)
    (calls : List (ICCall .ilp32)) :
    (c.serve m calls).callback = c.callback := (serve_frame m calls c).2.1

@[simp] theorem serve_events (m : IcModel) (c : Classifier)
    (calls : List (ICCall .ilp32)) :
    (c.serve m calls).events = c.events := (serve_frame m calls c).2.2

@[simp] theorem give_given (c : Classifier) (input : List UInt8) :
    (c.give input).given = c.given ++ [input] := rfl

@[simp] theorem give_callback (c : Classifier) (input : List UInt8) :
    (c.give input).callback = c.callback := rfl

@[simp] theorem give_events (c : Classifier) (input : List UInt8) :
    (c.give input).events = c.events := rfl

theorem serve_append (m : IcModel) (c : Classifier)
    (calls more : List (ICCall .ilp32)) :
    c.serve m (calls ++ more) = (c.serve m calls).serve m more :=
  List.foldl_append

theorem report_append (c : Classifier)
    (events more : List (IcEvent (List Int32))) :
    c.report (events ++ more) = (c.report events).report more := by
  cases hcallback : c.callback <;> simp [report, hcallback]

theorem serve_give (m : IcModel) (input : List UInt8)
    (calls : List (ICCall .ilp32)) :
    ∀ c : Classifier,
      (c.give input).serve m calls = (c.serve m calls).give input := by
  induction calls with
  | nil => exact fun _ => rfl
  | cons call calls ih =>
      exact fun c => ih { c with
        outputSize := (call.newOutputSize m).getD c.outputSize }

@[simp] theorem report_given (c : Classifier)
    (events : List (IcEvent (List Int32))) :
    (c.report events).given = c.given := by
  rw [report]
  split <;> rfl

end Classifier

/-- Where the first `k` slices of an image end. -/
def sliceEnd (image : List UInt8) (k : Nat) : Nat :=
  min image.length (k * maxIpcBufferSize)

/-- The number of slices. -/
def sliceCount (image : List UInt8) : Nat :=
  (image.length + (maxIpcBufferSize - 1)) / maxIpcBufferSize

/-- What the plugin is asked by others before the first `k` slices. -/
def othersBefore (env : Nat → IcSliceEnv) (k : Nat) : List (ICCall .ilp32) :=
  (List.range k).flatMap fun j => (env j).others

theorem sliceEnd_succ {image : List UInt8} {k : Nat}
    (hmore : sliceEnd image k < image.length) :
    sliceEnd image k = k * maxIpcBufferSize ∧
      sliceEnd image k / maxIpcBufferSize = k ∧
      sliceEnd image (k + 1) = sliceEnd image k +
        min (image.length - sliceEnd image k) maxIpcBufferSize ∧
      k + 1 ≤ sliceCount image := by
  simp only [sliceEnd, sliceCount, maxIpcBufferSize] at hmore ⊢
  omega

theorem sliceEnd_all {image : List UInt8} {k : Nat}
    (hk : k ≤ sliceCount image) (hend : ¬ sliceEnd image k < image.length) :
    sliceEnd image k = image.length ∧ k = sliceCount image := by
  simp only [sliceEnd, sliceCount, maxIpcBufferSize] at hk hend ⊢
  omega

theorem othersBefore_succ (env : Nat → IcSliceEnv) (k : Nat) :
    othersBefore env (k + 1) = othersBefore env k ++ (env k).others := by
  simp [othersBefore, List.range_succ]

theorem Classifier.serve_next (m : IcModel) (c : Classifier)
    (env : Nat → IcSliceEnv) (k : Nat) :
    (c.serve m (othersBefore env k)).serve m (env k).others =
      c.serve m (othersBefore env (k + 1)) := by
  rw [othersBefore_succ, serve_append]

/-- The calls of a callback with nothing but errors, and what is returned. -/
inductive Errors (retCode : Int) : List (IcEvent (List Int32)) → Prop where
  | once (errorCode : Int) : Errors retCode [.onError errorCode]
  | twice (hcode : retCode ≠ IcRetCode.success) :
      Errors retCode [.onError retCode, .onError IcRetCode.failure]

/-- What a call of `SyncExecute` with an image leads to. -/
inductive Classifies (m : IcModel) (env : IcImageEnv) (image : List UInt8)
    (c : Classifier) : Int → Classifier → Prop where
  | unheard {k : Nat} {retCode : Int} {events : List (IcEvent (List Int32))}
      (hk : k ≤ sliceCount image)
      (hcode : retCode = IcRetCode.success → image.length < m.inputSize)
      (herrors : Errors retCode events) :
      Classifies m env image c retCode
        ((c.serve m (othersBefore env.slice k)).report events)
  | unanswered {j k : Nat} {retCode : Int}
      {events : List (IcEvent (List Int32))} (hjk : j ≤ k)
      (hk : k ≤ sliceCount image) (hj : sliceEnd image j = m.inputSize)
      (hpos : 0 < m.inputSize) (hcode : retCode ≠ IcRetCode.success)
      (herrors : Errors retCode events) :
      Classifies m env image c retCode
        (((c.serve m (othersBefore env.slice k)).give
          (image.take m.inputSize)).report events)
  | delivered {items : List IcItem} (hsize : image.length = m.inputSize)
      (hbest : IsTopK (m.scores (env.slice (sliceCount image - 1)).process)
        (c.serve m (othersBefore env.slice (sliceCount image))).outputSize
        items) :
      Classifies m env image c IcRetCode.success
        (((c.serve m (othersBefore env.slice (sliceCount image))).give
          image).report [.onResult (itemValues items)])

/-! ## The plugin

`ICAttends` relates the plugin to the classifier. Calls that do not concern
the handle keep it, whatever they do to other handles, and an inference for
the handle is one of the classifier. -/

/-- The plugin has the input for the handle, and its models ran as before and
then, for the handle, on what the classifier was given. -/
structure ICAttends (m : IcModel) (before : List (Int × List UInt8))
    (input : List UInt8) (c : Classifier) (p : ICInference) : Prop where
  worker : p.plugin.handles.lookup m.handle =
    some (m.worker c.outputSize input)
  length : input.length = m.inputSize
  outputSize : 1 ≤ c.outputSize
  adapter : p.plugin.adapter.isSome = true
  invoked : ∃ more, p.invoked = before ++ more ∧
    givenTo m.handle more = c.given

section

variable {m : IcModel} {before : List (Int × List UInt8)}
variable {input : List UInt8} {c : Classifier} {p p' : ICInference}
variable {H : HeapAlgorithms heapComparer}

theorem ICAttends.insert_other (h : ICAttends m before input c p)
    {other : Int} (hother : m.handle ≠ other) (w : ICWorker) :
    ICAttends m before input c (p.setWorker other w) := by
  refine ⟨?_, h.length, h.outputSize, h.adapter, h.invoked⟩
  show (Finmap.insert other w p.plugin.handles).lookup m.handle = _
  rw [Table.lookup_insert_if, if_neg hother, h.worker]

theorem ICAttends.infer_other (h : ICAttends m before input c p)
    {other : Int} (hother : other ≠ m.handle) (bytes : List UInt8) :
    ICAttends m before input c
      { p with invoked := p.invoked ++ [(other, bytes)] } := by
  obtain ⟨more, hinvoked, hgiven⟩ := h.invoked
  refine ⟨h.worker, h.length, h.outputSize, h.adapter,
    more ++ [(other, bytes)], ?_, ?_⟩
  · rw [hinvoked, List.append_assoc]
  · rw [givenTo_append, hgiven]
    simp [givenTo, hother]

theorem ICAttends.infer (h : ICAttends m before input c p)
    (bytes : List UInt8) :
    ICAttends m before input (c.give bytes)
      { p with invoked := p.invoked ++ [(m.handle, bytes)] } := by
  obtain ⟨more, hinvoked, hgiven⟩ := h.invoked
  refine ⟨h.worker, h.length, h.outputSize, h.adapter,
    more ++ [(m.handle, bytes)], ?_, ?_⟩
  · rw [hinvoked, List.append_assoc]
  · rw [givenTo_append, hgiven]
    simp [givenTo, Classifier.give]

theorem ICAttends.copySlice_other (h : ICAttends m before input c p)
    {other : Int} (hother : other ≠ m.handle) {slicedIndex : Nat}
    {slicedImage : CArray .uint8} {env : ICProcessEnv} {retCode : Int}
    {result : Option DataInfo}
    (hrun : p.copySlice .ilp32 H other slicedIndex slicedImage env =
      .ok (retCode, result, p')) :
    ICAttends m before input c p' := by
  rw [ICInference.copySlice] at hrun
  split at hrun
  · cases hrun
    exact h
  dsimp only at hrun
  split at hrun
  · cases hrun
    exact h
  split at hrun
  · cases hrun
    exact h
  split at hrun
  · cases hrun
  · cases hrun
    exact h
  split at hrun
  · obtain ⟨r, -, hend⟩ := Outcome.bind_eq_ok.mp hrun
    cases hend
    exact (h.insert_other (Ne.symm hother) _).infer_other hother _
  · cases hrun
    exact h.insert_other (Ne.symm hother) _

theorem ICAttends.withAdapter (h : ICAttends m before input c p)
    (adapter : EngineAdapter) :
    ICAttends m before input c
      { p with plugin := { p.plugin with adapter := some adapter } } :=
  ⟨h.worker, h.length, h.outputSize, rfl, h.invoked⟩

theorem ICAttends.setOption (h : ICAttends m before input c p)
    {optionType : Int} {inputInfo : DataInfo} {heap : Nat → Bool}
    {retCode : Int}
    (hrun : p.setOption .ilp32 optionType inputInfo heap =
      .ok (retCode, p')) :
    ICAttends m before input
      (c.serve m [.setOption optionType inputInfo heap]) p' := by
  have hserve : c.serve m [.setOption optionType inputInfo heap] = { c with
      outputSize := (ICCall.newOutputSize m
        (.setOption optionType inputInfo heap)).getD c.outputSize } := rfl
  rw [hserve, ICCall.newOutputSize]
  rw [ICInference.setOption] at hrun
  by_cases hempty : inputInfo.data = .null ∨ inputInfo.length ≤ 0
  · rw [if_pos hempty] at hrun ⊢
    cases hrun
    exact h
  rw [if_neg hempty] at hrun ⊢
  by_cases htype : optionType ≠ optionSetOutputSize
  · rw [if_pos htype] at hrun ⊢
    cases hrun
    exact h
  rw [if_neg htype] at hrun ⊢
  cases hdecode : decodeUInt32 .ilp32 heap inputInfo with
  | fault =>
      rw [hdecode] at hrun
      cases hrun
  | fail code =>
      rw [hdecode] at hrun
      cases hrun
      exact h
  | ok val =>
      obtain ⟨handle, outputSize⟩ := val
      rw [hdecode] at hrun
      dsimp only at hrun ⊢
      by_cases hhandle : handle = m.handle
      · subst hhandle
        rw [h.worker] at hrun
        dsimp only [IcModel.worker] at hrun
        by_cases hsize : 0 < outputSize ∧ outputSize ≤ m.maxOutputSize
        · rw [if_pos ⟨rfl, hsize⟩]
          rw [if_pos hsize] at hrun
          cases hrun
          refine ⟨?_, h.length, hsize.1, h.adapter, h.invoked⟩
          show (Finmap.insert m.handle _ p.plugin.handles).lookup m.handle = _
          rw [Table.lookup_insert_if, if_pos rfl]
          rfl
        · rw [if_neg fun hboth => hsize hboth.2]
          rw [if_neg hsize] at hrun
          cases hrun
          exact h
      · rw [if_neg fun hboth => hhandle hboth.1]
        split at hrun
        · cases hrun
          exact h
        split at hrun
        · cases hrun
          exact h.insert_other (Ne.symm hhandle) _
        · cases hrun
          exact h

theorem ICAttends.prepare_other (h : ICAttends m before input c p)
    {env : ICPrepareEnv .ilp32} {outputInfo out : DataInfo} {retCode : Int}
    (hrun : p.prepare .ilp32 env outputInfo = .ok (retCode, out, p')) :
    ICAttends m before input c p' := by
  simp only [ICInference.prepare] at hrun
  split at hrun
  · cases hrun
    exact h
  split at hrun
  · cases hrun
    exact h.withAdapter _
  split at hrun
  · cases hrun
    exact h.withAdapter _
  next adapter _ other hinit hnew =>
  split at hrun
  · cases hrun
    exact h.withAdapter _
  next w hconfig =>
  obtain ⟨r, -, hend⟩ := Outcome.bind_eq_ok.mp hrun
  cases hend
  have hne : m.handle ≠ other := by
    intro heq
    have hin : m.handle ∈ p.plugin.handles := Table.mem_of_lookup h.worker
    exact hnew (heq ▸ hin)
  rw [Table.insertNew, if_neg hnew]
  exact (h.insert_other hne w).withAdapter _

theorem ICAttends.syncProcess_other (h : ICAttends m before input c p)
    {request result : Option DataInfo} {env : ICProcessEnv} {retCode : Int}
    (hapart : ¬ ICCall.Concerns m.handle (.syncProcess request env))
    (hrun : p.syncProcess .ilp32 H request env =
      .ok (retCode, result, p')) : ICAttends m before input c p' := by
  simp only [ICInference.syncProcess] at hrun
  split at hrun
  · cases hrun
    exact h
  cases request with
  | none =>
      cases hrun
      exact h
  | some inputInfo =>
      dsimp only at hrun
      split at hrun
      · cases hrun
        exact h
      split at hrun
      · cases hrun
      · cases hrun
        exact h
      · next other slicedIndex slicedImage hdecode =>
          have hne : other ≠ m.handle := by
            intro heq
            exact hapart ⟨slicedIndex, slicedImage, heq ▸ hdecode⟩
          exact h.copySlice_other hne hrun

theorem ICAttends.release_other (h : ICAttends m before input c p)
    {isFullUnload : Bool} {inputInfo : DataInfo} {env : ICReleaseEnv}
    {retCode : Int}
    (hapart : ¬ ICCall.Concerns m.handle (.release isFullUnload inputInfo env))
    (hrun : p.release .ilp32 isFullUnload inputInfo env =
      .ok (retCode, p')) : ICAttends m before input c p' := by
  rw [ICInference.release] at hrun
  split at hrun
  · cases hrun
    exact h
  split at hrun
  · cases hrun
  · cases hrun
    exact h
  next other hdecode =>
  have hne : m.handle ≠ other := by
    intro heq
    exact hapart (heq ▸ hdecode)
  split at hrun
  · cases hrun
    exact h
  dsimp only at hrun
  split at hrun
  · cases hrun
    exact h.withAdapter _
  have herased (adapter : EngineAdapter) :
      ICAttends m before input c { p with
        plugin := ⟨some adapter, p.plugin.handles.erase other⟩ } := by
    refine ⟨?_, h.length, h.outputSize, rfl, h.invoked⟩
    show (Finmap.erase other p.plugin.handles).lookup m.handle = _
    rw [Finmap.lookup_erase_ne hne, h.worker]
  split at hrun
  · cases hrun
    exact herased _
  · cases hrun
    exact herased _

/-- A call that does not concern the handle sets its number of scores at
most. -/
theorem ICAttends.call_other (h : ICAttends m before input c p)
    {call : ICCall .ilp32} (hapart : ¬ call.Concerns m.handle)
    {answer : ICAnswer} (hrun : p.call .ilp32 H call = .ok (answer, p')) :
    ICAttends m before input (c.serve m [call]) p' := by
  cases call with
  | prepare env outputInfo =>
      obtain ⟨⟨retCode, out, p₁⟩, hprepare, hend⟩ :=
        Outcome.bind_eq_ok.mp hrun
      cases hend
      exact h.prepare_other hprepare
  | syncProcess request env =>
      obtain ⟨⟨retCode, result, p₁⟩, hsync, hend⟩ :=
        Outcome.bind_eq_ok.mp hrun
      cases hend
      exact h.syncProcess_other hapart hsync
  | setOption optionType inputInfo heap =>
      obtain ⟨⟨retCode, p₁⟩, hset, hend⟩ := Outcome.bind_eq_ok.mp hrun
      cases hend
      exact h.setOption hset
  | getOption optionType inputInfo outputInfo decodeHeap encodeHeap =>
      obtain ⟨r, -, hend⟩ := Outcome.bind_eq_ok.mp hrun
      cases hend
      exact h
  | release isFullUnload inputInfo env =>
      obtain ⟨⟨retCode, p₁⟩, hrelease, hend⟩ := Outcome.bind_eq_ok.mp hrun
      cases hend
      exact h.release_other hapart hrelease

theorem ICAttends.serve (others : List (ICCall .ilp32))
    (hapart : ∀ call ∈ others, ¬ call.Concerns m.handle) :
    ∀ {p : ICInference} {c : Classifier}, ICAttends m before input c p →
      IcPipeline.serve H p others = .ok p' →
      ICAttends m before input (c.serve m others) p' := by
  induction others with
  | nil =>
      intro p c h hrun
      cases hrun
      exact h
  | cons call others ih =>
      intro p c h hrun
      obtain ⟨⟨answers, p₁⟩, hsession, hend⟩ := Outcome.bind_eq_ok.mp hrun
      cases hend
      obtain ⟨⟨answer, p₂⟩, hcall, hsession⟩ :=
        Outcome.bind_eq_ok.mp hsession
      obtain ⟨⟨answers, p₃⟩, hrest, hend⟩ := Outcome.bind_eq_ok.mp hsession
      cases hend
      have h₂ := h.call_other (hapart call (List.mem_cons_self ..)) hcall
      exact ih (fun call hcall => hapart call (List.mem_cons_of_mem _ hcall))
        h₂ (Outcome.bind_eq_ok.mpr ⟨_, hrest, rfl⟩)

end

/-! ## A slice

A slice of the client arrives as one call of the plugin among calls of others.
It can be lost, refused, stored, or stored and followed by an inference, and
it is last or not. -/

/-- The slice of an image that begins at some place. -/
def slice (image : List UInt8) (o size : Nat) : List UInt8 :=
  (image.drop o).take size

theorem length_slice {image : List UInt8} {o size : Nat}
    (hslice : o + size ≤ image.length) : (slice image o size).length = size :=
  IcSdk.length_slice hslice

/-- A slice that fits is copied, unless `memcpy_s` refuses the model input. -/
theorem memcpyS_slice_cases {input image : List UInt8} {o size : Nat}
    (hslice : o + size ≤ image.length) (hfits : o + size ≤ input.length) :
    memcpyS input o (Abi.ilp32.sub input.length o) (slice image o size) 0
        size = .fail eRange ∨
      memcpyS input o (Abi.ilp32.sub input.length o) (slice image o size) 0
        size = .ok (IcSdk.copiedSlice input image o size) := by
  have hlen := length_slice hslice
  cases hok : memcpyOk (Abi.ilp32.sub input.length o) size with
  | false =>
      left
      rw [memcpyS, hok]
      rfl
  | true =>
      right
      have hcopy := memcpyS_eq input (slice image o size) hok
        (show 0 + size ≤ _ by omega) hfits
      rw [List.drop_zero, List.take_of_length_le (Nat.le_of_eq hlen)] at hcopy
      exact hcopy

/-- What a request with a slice ends with. -/
inductive SliceEnds (m : IcModel) (before : List (Int × List UInt8))
    (input image : List UInt8) (o size : Nat) (env : ICProcessEnv)
    (c : Classifier) : Int → DataInfo → ICInference → Prop where
  | failed {retCode : Int} {outputInfo : DataInfo} {p' : ICInference}
      {input' : List UInt8} (hcode : retCode ≠ Retcode.success)
      (h : ICAttends m before input' c p') :
      SliceEnds m before input image o size env c retCode outputInfo p'
  | unanswered {retCode : Int} {outputInfo : DataInfo} {p' : ICInference}
      (hend : o + size = m.inputSize) (hcode : retCode ≠ Retcode.success)
      (h : ICAttends m before (IcSdk.copiedSlice input image o size)
        (c.give (IcSdk.copiedSlice input image o size)) p') :
      SliceEnds m before input image o size env c retCode outputInfo p'
  | copied {p' : ICInference} (hend : o + size < m.inputSize)
      (h : ICAttends m before (IcSdk.copiedSlice input image o size) c p') :
      SliceEnds m before input image o size env c Retcode.success ⟨.null, 0⟩
        p'
  | answered {items : List IcItem} {outputInfo : DataInfo}
      {p' : ICInference} (hend : o + size = m.inputSize)
      (hbest : IsTopK (m.scores env) c.outputSize items)
      (hencode : processEncodeItems .ilp32 env.encodeHeap ⟨.null, 0⟩
        (intptr .ilp32 m.handle) items = .ok outputInfo)
      (h : ICAttends m before (IcSdk.copiedSlice input image o size)
        (c.give (IcSdk.copiedSlice input image o size)) p') :
      SliceEnds m before input image o size env c Retcode.success outputInfo
        p'

section

variable {m : IcModel} {before : List (Int × List UInt8)}
variable {input image : List UInt8} {o size : Nat} {c : Classifier}
variable {p p' : ICInference} {H : HeapAlgorithms heapComparer}

theorem ICAttends.setInput (h : ICAttends m before input c p)
    {input' : List UInt8} (hlen : input'.length = m.inputSize) :
    ICAttends m before input' c
      (p.setWorker m.handle (m.worker c.outputSize input')) := by
  refine ⟨?_, hlen, h.outputSize, h.adapter, h.invoked⟩
  show (Finmap.insert m.handle _ p.plugin.handles).lookup m.handle = _
  rw [Table.lookup_insert_if, if_pos rfl]

theorem ICAttends.copySlice (h : ICAttends m before input c p)
    (hslice : o + size ≤ image.length)
    (himage : image.length < Abi.ilp32.sizeMod) {env : ICProcessEnv}
    {retCode : Int} {result : Option DataInfo}
    (hrun : p.copySlice .ilp32 H m.handle o (byteArray (slice image o size))
      env = .ok (retCode, result, p')) :
    SliceEnds m before input image o size env c retCode
      (result.getD ⟨.null, 0⟩) p' := by
  have hfailed : Retcode.failure ≠ Retcode.success := by decide
  have hlen := length_slice hslice
  have hsize : (byteArray (slice image o size)).size = size := hlen
  have hmod : Abi.ilp32.sizeT (o + size) = o + size :=
    Abi.sizeT_of_lt (by omega)
  have hbytes := (elemBytes_byteArray (slice image o size)).2
  rw [ICInference.copySlice, h.worker] at hrun
  dsimp only [IcModel.worker] at hrun
  rw [hsize, hmod] at hrun
  split at hrun
  · cases hrun
    exact .failed hfailed h
  next hfits =>
  have hfits := Nat.le_of_not_lt hfits
  split at hrun
  · cases hrun
    exact .failed hfailed h
  next data hdata =>
  rw [hdata, Option.getD_some] at hbytes
  rw [hbytes] at hrun
  have hroom : o + size ≤ input.length := h.length.symm ▸ hfits
  have hcases := memcpyS_slice_cases hslice hroom
  rw [h.length] at hcases
  rcases hcases with hrefused | hcopy
  · rw [hrefused] at hrun
    cases hrun
    exact .failed hfailed h
  rw [hcopy] at hrun
  dsimp only at hrun
  have hcopied : (IcSdk.copiedSlice input image o size).length =
      m.inputSize :=
    (IcSdk.length_copiedSlice hslice hroom).trans h.length
  have hnext := h.setInput hcopied
  split at hrun
  · next hend =>
      obtain ⟨⟨code, out⟩, hinfer, hend'⟩ := Outcome.bind_eq_ok.mp hrun
      cases hend'
      have hscores : (m.worker c.outputSize
          (IcSdk.copiedSlice input image o size)).maxOutputSize < 2 ^ 31 := by
        have hlt := m.scores_lt
        simp only [Abi.sizeMod, Abi.wordSize] at hlt
        show m.maxOutputSize < 2 ^ 31
        omega
      rcases doProcess_ok (H := H) hscores h.outputSize hinfer with
        ⟨hcode, rfl⟩ | ⟨rfl, items, outputInfo, hbest, rfl, hencode⟩
      · exact .unanswered hend hcode (hnext.infer _)
      · exact .answered hend hbest hencode (hnext.infer _)
  · next hend =>
      cases hrun
      exact .copied (Nat.lt_of_le_of_ne hfits hend) hnext

theorem ICAttends.syncProcess (h : ICAttends m before input c p)
    (hpos : 0 < size) (hslice : o + size ≤ image.length)
    (himage : image.length < Abi.ilp32.sizeMod) {heap : Nat → Bool}
    {dataInfo inputInfo : DataInfo} {env : ICProcessEnv} {retCode : Int}
    {result : Option DataInfo}
    (hencode : encodeSlice heap dataInfo m.handle o (slice image o size) =
      .ok inputInfo)
    (hrun : p.syncProcess .ilp32 H (some inputInfo) env =
      .ok (retCode, result, p')) :
    SliceEnds m before input image o size env c retCode
      (result.getD ⟨.null, 0⟩) p' := by
  have hfailed : Retcode.failure ≠ Retcode.success := by decide
  have hlen := length_slice hslice
  have hoffset : o < 4294967296 := by
    simp only [Abi.sizeMod, Abi.wordSize] at himage
    omega
  obtain ⟨hdata, hlength, hdecode⟩ := decodeSlice_carried m.range hoffset
    (hlen.symm ▸ hpos) hencode env.decodeHeap
  simp only [ICInference.syncProcess] at hrun
  split at hrun
  · cases hrun
    exact .failed hfailed h
  rw [if_neg (not_or.mpr ⟨hdata, hlength⟩)] at hrun
  rcases hdecode with hfail | hsame
  · rw [hfail] at hrun
    cases hrun
    exact .failed hfailed h
  · rw [hsame] at hrun
    exact h.copySlice hslice himage hrun

/-- `AieClientSyncProcess`, whatever becomes of the request. -/
theorem ICAttends.aieClientSyncProcess (h : ICAttends m before input c p)
    (hpos : 0 < size) (hslice : o + size ≤ image.length)
    (himage : image.length < Abi.ilp32.sizeMod) {heap : Nat → Bool}
    {dataInfo inputInfo outputInfo : DataInfo} {env : IcSliceEnv}
    {retCode : Int}
    (hapart : ∀ call ∈ env.others, ¬ call.Concerns m.handle)
    (hencode : encodeSlice heap dataInfo m.handle o (slice image o size) =
      .ok inputInfo)
    (hrun : IcPipeline.aieClientSyncProcess H p inputInfo env =
      .ok (retCode, outputInfo, p')) :
    SliceEnds m before input image o size env.process (c.serve m env.others)
      retCode outputInfo p' := by
  have hfailed : Retcode.failure ≠ Retcode.success := by decide
  obtain ⟨p₁, hserve, hrun⟩ := Outcome.bind_eq_ok.mp hrun
  have h₁ := h.serve env.others hapart hserve
  split at hrun
  · cases hrun
    exact .failed hfailed h₁
  · obtain ⟨⟨code, result, p₂⟩, hsync, hend⟩ := Outcome.bind_eq_ok.mp hrun
    cases hend
    have hends := h₁.syncProcess hpos hslice himage hencode hsync
    generalize result.getD ⟨.null, 0⟩ = out at hends
    cases hends with
    | failed hcode h₂ => exact .failed hfailed h₂
    | unanswered hend hcode h₂ => exact .unanswered hend hfailed h₂
    | copied hend h₂ => exact .failed hfailed h₂
    | answered hend hbest hencode h₂ => exact .unanswered hend hfailed h₂
  · obtain ⟨⟨code, result, p₂⟩, hsync, hend⟩ := Outcome.bind_eq_ok.mp hrun
    have hends := h₁.syncProcess hpos hslice himage hencode hsync
    dsimp only at hend
    split at hend
    · next hcode =>
        have hother : Retcode.algorithmProcessError ≠ Retcode.success := by
          decide
        cases hend
        generalize result.getD ⟨.null, 0⟩ = out at hends
        cases hends with
        | failed hcode h₂ => exact .failed hother h₂
        | unanswered hend hcode h₂ => exact .unanswered hend hother h₂
        | copied hend h₂ => exact absurd rfl hcode
        | answered hend hbest hencode h₂ => exact absurd rfl hcode
    · next hcode =>
        cases hend
        obtain rfl := not_not.mp hcode
        exact hends

end

end AiEngine.Ref
