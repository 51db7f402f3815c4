import AiEngine.Proofs.ImageCalls

/-!
# From `Create` to `Destroy`

Between the two nothing happens to the model of a handle and to the callback
but what their classifier says, whatever fails and whatever else the plugin
is asked for meanwhile, as long as others leave the handle alone. They may set
the number of scores. An image of the size that the model takes is classified
where everything is there for it, whatever has happened before.
-/

namespace AiEngine.Ref

open AiEngine.Lib

/-! ## Images that are classified

Where everything is served, each slice is stored and the last one is followed
by an inference, so that nothing is left of the ways to fail. -/

/-- Everything is there for a request. -/
structure ICProcessEnv.Serves (env : ICProcessEnv) : Prop where
  decodeHeap : HeapServes env.decodeHeap
  invoke : env.invoke = Retcode.success
  newItems : env.newItems = true
  encodeHeap : HeapServes env.encodeHeap
  newResponse : env.newResponse = true

/-- Everything is there for an image, and the calls of others return. -/
structure IcImageEnv.Serves (H : HeapAlgorithms heapComparer)
    (env : IcImageEnv) : Prop where
  encodeHeap : ∀ k, HeapServes (env.slice k).encodeHeap
  others : ∀ k p, ∃ p',
    IcPipeline.serve H p (env.slice k).others = .ok p'
  transmission : ∀ k, (env.slice k).transmission = .answered
  process : ∀ k, (env.slice k).process.Serves
  decodeHeap : HeapServes env.decodeHeap

/-- The model has scores, `memcpy_s` accepts its input, and an encoding of all
its scores has a length that is an `int`. -/
structure IcModel.Answers (m : IcModel) : Prop where
  inputSize : m.inputSize ≤ memcpyMax
  outputAddr : m.outputAddr ≠ 0
  maxOutputSize :
    3 * Abi.ilp32.wordSize + 8 * m.maxOutputSize ≤ intMax

section

variable {m : IcModel} {before : List (Int × List UInt8)}
variable {calls : List (IcEvent (List Int32))} {input image : List UInt8}
variable {c : Classifier} {s s' : IcPipeline} {p p' : ICInference}
variable {H : HeapAlgorithms heapComparer} {o size : Nat}

theorem ICAttends.copySlice_served (h : ICAttends m before input c p)
    (hanswers : m.Answers) (hpos : 0 < size)
    (hslice : o + size ≤ image.length)
    (himage : image.length < Abi.ilp32.sizeMod)
    (hfits : o + size ≤ m.inputSize) {env : ICProcessEnv}
    (henv : env.Serves) :
    ∃ result p', p.copySlice .ilp32 H m.handle o
        (byteArray (slice image o size)) env =
      .ok (Retcode.success, result, p') := by
  have hsize : (byteArray (slice image o size)).size = size :=
    length_slice hslice
  have hmod : Abi.ilp32.sizeT (o + size) = o + size :=
    Abi.sizeT_of_lt (by omega)
  have hbytes := (elemBytes_byteArray (slice image o size)).2
  have hroom : o + size ≤ input.length := h.length.symm ▸ hfits
  have hmax : input.length ≤ memcpyMax := h.length.symm ▸ hanswers.inputSize
  have hcopy := IcSdk.memcpyS_slice hpos hslice hroom hmax
  rw [IcSdk.length_slice hslice, ← slice, h.length] at hcopy
  obtain ⟨data, hdata⟩ : ∃ data,
      (byteArray (slice image o size)).data = some data := ⟨_, rfl⟩
  rw [hdata, Option.getD_some] at hbytes
  rw [ICInference.copySlice, h.worker]
  dsimp only [IcModel.worker]
  rw [hsize, hmod, if_neg (Nat.not_lt.mpr hfits), hdata]
  dsimp only
  rw [hbytes, hcopy]
  dsimp only
  by_cases hend : o + size = m.inputSize
  · have hscores : m.maxOutputSize < 2 ^ 31 := by
      have hlt := m.scores_lt
      simp only [Abi.sizeMod, Abi.wordSize] at hlt
      omega
    obtain ⟨outputInfo, hinfer⟩ : ∃ outputInfo,
        ICInference.doProcess .ilp32 H m.handle (m.worker c.outputSize
          (IcSdk.copiedSlice input image o size)) env =
        .ok (Retcode.success, some outputInfo) :=
      doProcess_served henv.invoke henv.newItems henv.encodeHeap
        henv.newResponse hanswers.outputAddr hscores h.outputSize
        hanswers.maxOutputSize
    rw [if_pos hend]
    exact ⟨_, _, Outcome.bind_eq_ok.mpr ⟨_, hinfer, rfl⟩⟩
  · rw [if_neg hend]
    exact ⟨_, _, rfl⟩

theorem ICAttends.aieClientSyncProcess_served
    (h : ICAttends m before input c p) (hanswers : m.Answers)
    (hpos : 0 < size) (hslice : o + size ≤ image.length)
    (himage : image.length < Abi.ilp32.sizeMod)
    (hfits : o + size ≤ m.inputSize) {heap : Nat → Bool}
    {dataInfo inputInfo : DataInfo} {env : IcImageEnv} {k : Nat}
    (henv : env.Serves H)
    (hapart : ∀ call ∈ (env.slice k).others, ¬ call.Concerns m.handle)
    (hencode : encodeSlice heap dataInfo m.handle o (slice image o size) =
      .ok inputInfo) :
    ∃ outputInfo p', IcPipeline.aieClientSyncProcess H p inputInfo
        (env.slice k) = .ok (Retcode.success, outputInfo, p') := by
  have hlen := length_slice hslice
  have hoffset : o < 4294967296 := by
    simp only [Abi.sizeMod, Abi.wordSize] at himage
    omega
  obtain ⟨p₁, hserve⟩ := henv.others k p
  have h₁ := h.serve _ hapart hserve
  obtain ⟨adapter, hadapter⟩ := Option.isSome_iff_exists.mp h₁.adapter
  obtain ⟨hdata, hlength, -⟩ := decodeSlice_carried m.range hoffset
    (hlen.symm ▸ hpos) hencode (env.slice k).process.decodeHeap
  have hdecode := decodeSlice_served (henv.process k).decodeHeap m.range
    hoffset (hlen.symm ▸ hpos) hencode
  obtain ⟨result, p₂, hcopy⟩ := h₁.copySlice_served (H := H) hanswers hpos
    hslice himage hfits (henv.process k)
  have hsync : p₁.syncProcess .ilp32 H (some inputInfo)
      (env.slice k).process = .ok (Retcode.success, result, p₂) := by
    simp only [ICInference.syncProcess, hadapter]
    rw [if_neg (not_or.mpr ⟨hdata, hlength⟩), hdecode]
    exact hcopy
  refine ⟨result.getD ⟨.null, 0⟩, p₂, Outcome.bind_eq_ok.mpr
    ⟨p₁, hserve, ?_⟩⟩
  rw [henv.transmission k]
  exact Outcome.bind_eq_ok.mpr ⟨_, hsync, if_neg (not_not.mpr rfl)⟩

/-- An image of the size that the model takes is sent to its end. -/
theorem Sending.sendSlices_served (hanswers : m.Answers) {env : IcImageEnv}
    (henv : env.Serves H)
    (hapart : ∀ k, ∀ call ∈ (env.slice k).others, ¬ call.Concerns m.handle)
    (hpos : 0 < image.length) (himage : image.length < Abi.ilp32.sizeMod)
    (hsize : image.length = m.inputSize) (rounds : Nat) :
    ∀ {k : Nat} {s : IcPipeline} {out : DataInfo},
      Sending m before calls image env.slice c k s out →
      image.length - sliceEnd image k < rounds →
      ∃ outputInfo s', s.sendSlices H env.slice image (sliceEnd image k) out
        rounds = .ok (IcRetCode.success, outputInfo, s') := by
  induction rounds with
  | zero => exact fun _ hrounds => absurd hrounds (Nat.not_lt_zero _)
  | succ rounds ih =>
      intro k s out h hrounds
      by_cases hmore : sliceEnd image k < image.length
      swap
      · exact ⟨out, s, by rw [IcPipeline.sendSlices, if_neg hmore]⟩
      obtain ⟨-, hnumber, hnext, -⟩ := sliceEnd_succ hmore
      obtain ⟨hsome, hslice⟩ := IcSdk.slice_bounds hmore
      have hmax : (slice image (sliceEnd image k)
          (min (image.length - sliceEnd image k) maxIpcBufferSize)).length ≤
          maxIpcBufferSize := by
        rw [length_slice hslice]
        exact Nat.min_le_right _ _
      obtain ⟨inputInfo, hencode⟩ := encodeSlice_served ⟨.null, 0⟩ m.handle
        (sliceEnd image k) (henv.encodeHeap k)
        (by rwa [length_slice hslice]) hmax
      cases h with
      | wholly hk hend hbest hencode' h => omega
      | partly hless htake h =>
          obtain ⟨out₁, p', hsync⟩ := h.plugin.aieClientSyncProcess_served
            (H := H) hanswers hsome hslice himage (by omega) henv (hapart k)
            hencode
          rw [← h.icHandle] at hencode
          have hsent : Sending m before calls image env.slice c (k + 1)
              { s with plugin := p' } out₁ := by
            have hstart : Sending m before calls image env.slice c k s
                ⟨.null, 0⟩ := .partly hless htake h
            rcases hstart.next (hapart k) hpos himage hmore hencode hsync with
              ⟨hcode, -⟩ | ⟨-, hsent⟩
            · exact absurd rfl hcode
            · exact hsent
          obtain ⟨outputInfo, s', hrest⟩ := ih hsent (by omega)
          refine ⟨outputInfo, s', ?_⟩
          simp only [IcPipeline.sendSlices]
          rw [if_pos hmore, hnumber, ← slice, hencode,
            Abi.sizeT_of_lt (by omega), ← hnext]
          exact Outcome.bind_eq_ok.mpr
            ⟨_, hsync, (if_neg (not_not.mpr rfl)).trans hrest⟩

theorem IcTracks.syncExecute_served (h : IcTracks m before calls input s c)
    (hanswers : m.Answers) {env : IcImageEnv} (henv : env.Serves H)
    (hapart : ∀ k, ∀ call ∈ (env.slice k).others, ¬ call.Concerns m.handle)
    (hpos : 0 < image.length) (hsize : image.length = m.inputSize) :
    ∃ s', s.syncExecute H env (some image) =
      .ok (IcRetCode.success, s') := by
  have himage : (imageOf (some image)).length < Abi.ilp32.sizeMod :=
    hsize.symm ▸ m.inputSize_lt
  have hstart : Sending m before calls image env.slice c 0 s ⟨.null, 0⟩ :=
    h.sent
  obtain ⟨outputInfo, s₁, hsend⟩ := hstart.sendSlices_served hanswers henv
    hapart hpos himage hsize (image.length + 1)
    (Nat.lt_succ_of_le (Nat.sub_le _ _))
  have hsends := hstart.sendSlices hapart hpos himage _ (Nat.zero_le _) hsend
  have hwhole : s.onSyncExecute H env.slice (some image) =
      .ok (IcRetCode.success, outputInfo, s₁) :=
    (onSyncExecute_image
      (show 0 < (imageOf (some image)).length from hpos)).trans hsend
  cases hsends with
  | failed hk hcode h₁ => exact absurd rfl hcode
  | unanswered hjk hk hj hM hcode h₁ => exact absurd rfl hcode
  | short hless h₁ => omega
  | @answered _ input₁ items heap outputInfo hsize hbest hencode h₁ =>
      have hcount := items_countable hbest
      obtain ⟨hdata, hlength, -⟩ :=
        decodeItems_carried m.range hcount hencode env.decodeHeap
      have hdecode := decodeItems_served henv.decodeHeap m.range hcount
        hencode
      refine ⟨s₁.report (.onResult (int32s ((itemArray items).data.getD []))),
        Outcome.bind_eq_ok.mpr ⟨_, hwhole, ?_⟩⟩
      dsimp only
      rw [if_neg (not_or.mpr ⟨hdata, not_or.mpr ⟨hlength, not_not.mpr rfl⟩⟩),
        hdecode]
      exact if_neg (not_not.mpr h₁.icHandle)

end

section

variable {H : HeapAlgorithms heapComparer} {p p' : ICInference}
variable {s s' : IcPipeline}

/-- A `Prepare` that tells a handle has made its entry. -/
theorem icPrepare_told {env : ICPrepareEnv .ilp32} {outputInfo : DataInfo}
    (hrun : p.prepare .ilp32 env ⟨.null, 0⟩ =
      .ok (Retcode.success, outputInfo, p'))
    (htold : outputInfo.data ≠ .null) :
    ∃ handle w, env.init = some handle ∧
      ICInference.buildConfig .ilp32 env = some w ∧
      encodeHandle .ilp32 env.heap ⟨.null, 0⟩ handle = .ok outputInfo ∧
      p'.plugin.handles.lookup handle = some w ∧
      p'.plugin.adapter.isSome = true := by
  simp only [ICInference.prepare] at hrun
  split at hrun
  · cases hrun
  split at hrun
  · cases hrun
  next handle hinit =>
  split at hrun
  · cases hrun
    exact absurd rfl htold
  next hnew =>
  split at hrun
  · cases hrun
  next w hconfig =>
  obtain ⟨⟨code, out⟩, hencode, hend⟩ := Outcome.bind_eq_ok.mp hrun
  cases hend
  refine ⟨handle, w, hinit, hconfig,
    encoded_success (processEncode_code _ _) hencode, ?_, rfl⟩
  show (p.plugin.handles.insertNew handle w).lookup handle = _
  rw [Table.insertNew, if_neg hnew, Table.lookup_insert_if, if_pos rfl]

/-- The model that a `Prepare` is told of. -/
def ICPrepareEnv.model (env : ICPrepareEnv .ilp32) {handle : Int}
    (hrange : IntptrRange .ilp32 handle) : IcModel where
  handle := handle
  inputSize := env.inputAddr.input.length
  outputAddr := env.outputAddr.addr
  maxOutputSize := env.outputAddr.size
  range := hrange
  inputSize_lt := env.inputAddr.size_lt
  scores_lt := env.outputAddr.size_lt

theorem buildConfig_model {env : ICPrepareEnv .ilp32} {w : ICWorker}
    (hconfig : ICInference.buildConfig .ilp32 env = some w) {handle : Int}
    (hrange : IntptrRange .ilp32 handle) :
    w = (env.model hrange).worker ICPlugin.defaultOutputSize
      env.inputAddr.input := by
  rw [ICInference.buildConfig] at hconfig
  split at hconfig
  · cases hconfig
  split at hconfig
  · cases hconfig
  · cases hconfig
    rfl

/-- A `Create` that succeeds has a handle of its own. -/
theorem create_tracks {env : IcCreateEnv}
    (hrange : ∀ handle, env.prepare.init = some handle →
      IntptrRange .ilp32 handle)
    (hrun : s.create H env = .ok (IcRetCode.success, s')) :
    ∃ hrange : IntptrRange .ilp32 s'.sdk.icHandle,
      IcTracks (env.prepare.model hrange) s'.plugin.invoked s'.sdk.events
        env.prepare.inputAddr.input s' (.created s'.sdk.callback) := by
  simp only [IcPipeline.create] at hrun
  split at hrun
  · cases hrun
  split at hrun
  · cases hrun
  split at hrun
  · cases hrun
  obtain ⟨⟨retCode, outputInfo, p₁⟩, hprepare, hrun⟩ :=
    Outcome.bind_eq_ok.mp hrun
  dsimp only at hrun
  split at hrun
  · cases hrun
  next hret =>
  obtain rfl := not_not.mp hret
  split at hrun
  · cases hrun
  next hvalid =>
  obtain ⟨p₀, -, hprepare⟩ := Outcome.bind_eq_ok.mp hprepare
  split at hprepare
  · cases hprepare
  · obtain ⟨r, -, hend⟩ := Outcome.bind_eq_ok.mp hprepare
    cases hend
  obtain ⟨handle, w, hinit, hconfig, hencode, hlookup, hadapter⟩ :=
    icPrepare_told hprepare fun hnull => hvalid (.inl hnull)
  have hinRange := hrange handle hinit
  rcases decodeHandle_carried hinRange hencode env.decodeHeap with
    hfail | hsame
  · rw [hfail] at hrun
    cases hrun
  rw [hsame] at hrun
  cases hrun
  exact ⟨hinRange, rfl, rfl, (List.append_nil _).symm,
    hlookup.trans (congrArg some (buildConfig_model hconfig hinRange)), rfl,
    show 1 ≤ ICPlugin.defaultOutputSize by decide, hadapter, [],
    (List.append_nil _).symm, rfl⟩

end

/-! ## A sample

A first handle is made, for a model of any input, and then everything is there
for each image.
-/

/-- Everything is there for a first handle, whose model takes three bytes and
makes two scores. -/
def sampleIcCreate : IcCreateEnv where
  clientInit := Retcode.success
  clientId := 1
  others := []
  transmission := .answered
  prepare := {
    newAdapter := true
    init := some 7
    inputAddr := ⟨0, [0, 0, 0], by decide⟩
    outputAddr := ⟨0, 1, 2, by decide⟩
    heap := fun _ => true }
  decodeHeap := fun _ => true
  handle := 0

/-- The same with another model input. -/
def IcCreateEnv.taking (env : IcCreateEnv) (input : List UInt8)
    (hlt : input.length < Abi.ilp32.sizeMod) : IcCreateEnv :=
  { env with prepare := { env.prepare with inputAddr := ⟨0, input, hlt⟩ } }

/-- A client and a server before anything is done. -/
def sampleIcPipeline : IcPipeline :=
  ⟨⟨invalidIcHandle, -1, false, []⟩, .new⟩

/-- Everything is there for an image, and nobody else asks. -/
def sampleIcImage : IcImageEnv where
  slice := fun _ => {
    encodeHeap := fun _ => true
    others := []
    transmission := .answered
    process := ⟨fun _ => true, 0, fun _ => 5, true, fun _ => true, true⟩ }
  decodeHeap := fun _ => true

section

variable {input : List UInt8} (hlt : input.length < Abi.ilp32.sizeMod)

theorem sampleIcCreate_range (handle : Int)
    (h : (sampleIcCreate.taking input hlt).prepare.init = some handle) :
    IntptrRange .ilp32 handle := by
  obtain rfl : 7 = handle := Option.some.inj h
  exact ⟨by decide, by decide⟩

theorem sampleIc_created (H : HeapAlgorithms heapComparer) :
    ∃ created, sampleIcPipeline.create H (sampleIcCreate.taking input hlt) =
      .ok (IcRetCode.success, created) := by
  generalize henv : sampleIcCreate.taking input hlt = env
  have hencode : encodeHandle .ilp32 env.prepare.heap ⟨.null, 0⟩ 7 =
      .ok ⟨.block [7, 0, 0, 0, 4, 0, 0, 0], 8⟩ := by
    have hsample : encodeHandle .ilp32 sampleIcCreate.prepare.heap
        ⟨.null, 0⟩ 7 = .ok ⟨.block [7, 0, 0, 0, 4, 0, 0, 0], 8⟩ := by
      decide +kernel
    rw [← henv]
    exact hsample
  have hdecode : decodeHandle .ilp32 env.decodeHeap
      ⟨.block [7, 0, 0, 0, 4, 0, 0, 0], 8⟩ = .ok 7 := by
    have hsample : decodeHandle .ilp32 sampleIcCreate.decodeHeap
        ⟨.block [7, 0, 0, 0, 4, 0, 0, 0], 8⟩ = .ok 7 := by
      decide +kernel
    rw [← henv]
    exact hsample
  obtain ⟨p', hprepare⟩ : ∃ p', IcPipeline.aieClientPrepare H .new env =
      .ok (Retcode.success, ⟨.block [7, 0, 0, 0, 4, 0, 0, 0], 8⟩, p') := by
    have hserve : IcPipeline.serve H .new env.others = .ok .new := by
      rw [← henv]
      rfl
    have hanswered : env.transmission = .answered := by
      rw [← henv]
      rfl
    have hconfig : ICInference.buildConfig .ilp32 env.prepare =
        some ⟨input.length, ICPlugin.defaultOutputSize, input, 1, 2⟩ := by
      rw [← henv]
      rfl
    have hinit : env.prepare.init = some 7 := by
      rw [← henv]
      rfl
    have hadapter : ICInference.new.plugin.getAdapter
        env.prepare.newAdapter = some ⟨∅⟩ := by
      rw [← henv]
      rfl
    have hfresh : ¬ (7 : Int) ∈ ICInference.new.plugin.handles :=
      Finmap.notMem_empty
    rw [IcPipeline.aieClientPrepare, hserve, Outcome.ok_bind, hanswered]
    dsimp only
    rw [ICInference.prepare, hadapter, hinit]
    dsimp only
    rw [if_neg hfresh, hconfig]
    dsimp only
    rw [hencode]
    exact ⟨_, rfl⟩
  have hplugin : sampleIcPipeline.plugin = .new := rfl
  have hclient : env.clientInit = Retcode.success := by
    rw [← henv]
    rfl
  have hid : env.clientId ≠ -1 := by
    rw [← henv]
    exact show (1 : Int) ≠ -1 by decide
  rw [IcPipeline.create, if_neg (by decide)]
  dsimp only
  rw [if_neg (not_not.mpr hclient), if_neg hid, hplugin, hprepare,
    Outcome.ok_bind]
  dsimp only
  rw [if_neg (by decide), if_neg (by decide), hdecode]
  exact ⟨_, rfl⟩

end

/-- From a `Create` that succeeds to `Destroy`, whatever fails on the way: the
model of the handle was given inputs and the callback was called as the steps
that were taken, in their order, can make a classifier do. -/
theorem classifying_follows_images (H : HeapAlgorithms heapComparer)
    {before created s : IcPipeline} {env : IcCreateEnv}
    (hrange : ∀ handle, env.prepare.init = some handle →
      IntptrRange .ilp32 handle)
    (hcreate : before.create H env = .ok (IcRetCode.success, created))
    {is : List IcStep} (hapart : ∀ i ∈ is, i.Apart created.sdk.icHandle)
    (hrun : (classifyingMachine H created).run Machine.anyStep created is =
      some s) :
    ∃ (hrange : IntptrRange .ilp32 created.sdk.icHandle) (c : Classifier)
      (more : List (Int × List UInt8)),
      Classifier.Runs (env.prepare.model hrange) created.sdk.callback is c ∧
      s.plugin.invoked = created.plugin.invoked ++ more ∧
      givenTo created.sdk.icHandle more = c.given ∧
      s.sdk.callback = c.callback ∧
      s.sdk.events = created.sdk.events ++ c.events := by
  obtain ⟨hinRange, htracks⟩ := create_tracks hrange hcreate
  obtain ⟨c, input, hruns, h⟩ :=
    htracks.run is (.created) hapart hrun
  obtain ⟨more, hinvoked, hgiven⟩ := h.plugin.invoked
  exact ⟨hinRange, c, more, hruns, hinvoked, hgiven, h.callback, h.events⟩

/-- Someone else sets the number of scores of the handle to two. -/
def setTwoScores : ICCall .ilp32 :=
  .setOption optionSetOutputSize
    ⟨.block [7, 0, 0, 0, 2, 0, 0, 0, 8, 0, 0, 0], 12⟩ fun _ => true

theorem setTwoScores_served (H : HeapAlgorithms heapComparer)
    (p : ICInference) :
    ∃ p', IcPipeline.serve H p [setTwoScores] = .ok p' := by
  have hdecode : decodeUInt32 .ilp32 (fun _ => true)
      ⟨.block [7, 0, 0, 0, 2, 0, 0, 0, 8, 0, 0, 0], 12⟩ = .ok (7, 2) := by
    decide +kernel
  obtain ⟨answer, p', hcall⟩ : ∃ answer p',
      p.call .ilp32 H setTwoScores = .ok (answer, p') := by
    simp only [setTwoScores, ICInference.call, ICInference.setOption]
    rw [if_neg (by decide), if_neg (by decide), hdecode]
    dsimp only
    split
    · exact ⟨_, _, rfl⟩
    · split
      · exact ⟨_, _, rfl⟩
      · exact ⟨_, _, rfl⟩
  refine ⟨p', ?_⟩
  simp only [IcPipeline.serve, session, hcall, Outcome.ok_bind]

/-- They do so before each slice of an image, too. -/
def sharedIcImage : IcImageEnv where
  slice := fun k =>
    { sampleIcImage.slice k with others := [setTwoScores] }
  decodeHeap := fun _ => true

theorem sharedIcImage_serves (H : HeapAlgorithms heapComparer) :
    sharedIcImage.Serves H where
  encodeHeap _ _ := rfl
  others _ p := setTwoScores_served H p
  transmission _ := rfl
  process _ := ⟨fun _ => rfl, rfl, rfl, fun _ => rfl, rfl⟩
  decodeHeap _ := rfl

/-- The callback is set and the number of scores, and an image is classified,
before each slice of which the number of scores is set again. -/
def sharedIcSteps (image : List UInt8) : List IcStep :=
  [.setCallback, .others [setTwoScores],
    .syncExecute (some image) sharedIcImage]

theorem setTwoScores_apart (handle : Int) :
    ¬ setTwoScores.Concerns handle := id

theorem sharedIcSteps_apart (image : List UInt8) (handle : Int) :
    ∀ i ∈ sharedIcSteps image, i.Apart handle := by
  intro i hi
  rcases List.mem_cons.mp hi with rfl | hi
  · trivial
  rcases List.mem_pair.mp hi with rfl | rfl
  · intro call hc
    rw [List.mem_singleton.mp hc]
    exact setTwoScores_apart handle
  · intro k call hc
    rw [List.mem_singleton.mp hc]
    exact setTwoScores_apart handle

/-- All of these steps can be taken, for an image of the size of the model
input. -/
theorem sharedIcSteps_run (H : HeapAlgorithms heapComparer)
    {image : List UInt8} (hlt : image.length < Abi.ilp32.sizeMod)
    (hpos : 0 < image.length) (hmax : image.length ≤ memcpyMax)
    {created : IcPipeline}
    (hcreate : sampleIcPipeline.create H (sampleIcCreate.taking image hlt) =
      .ok (IcRetCode.success, created)) :
    ∃ s, (classifyingMachine H created).run Machine.anyStep created
      (sharedIcSteps image) = some s := by
  obtain ⟨hrange, htracks⟩ := create_tracks (sampleIcCreate_range hlt) hcreate
  have hanswers :
      ((sampleIcCreate.taking image hlt).prepare.model hrange).Answers :=
    ⟨hmax, show 1 ≠ 0 by decide,
      show 3 * Abi.ilp32.wordSize + 8 * 2 ≤ intMax by decide⟩
  obtain ⟨s, hbefore⟩ : ∃ s, (classifyingMachine H created).run
      Machine.anyStep created ((sharedIcSteps image).take 2) = some s := by
    obtain ⟨p', hserve⟩ := setTwoScores_served H created.plugin
    refine ⟨{ created with
      sdk := { created.sdk with callback := true }, plugin := p' }, ?_⟩
    simp only [sharedIcSteps, List.take, Machine.run, classifyingMachine,
      IcPipeline.step, hserve]
    rfl
  obtain ⟨c, input, -, h⟩ := htracks.run ((sharedIcSteps image).take 2)
    (.created) (fun i hi =>
      sharedIcSteps_apart image _ i (List.mem_of_mem_take hi)) hbefore
  obtain ⟨s', hok⟩ := h.syncExecute_served hanswers (sharedIcImage_serves H)
    (fun k call hc => by
      rw [List.mem_singleton.mp hc]
      exact setTwoScores_apart _) hpos rfl
  have hsize : ¬ Abi.ilp32.sizeMod ≤ ((some image).getD []).length :=
    Nat.not_le.mpr hlt
  have hlast : s.step H (.syncExecute (some image) sharedIcImage) =
      some s' := by
    rw [IcPipeline.step, if_neg hsize, hok]
  refine ⟨s', ?_⟩
  rw [← List.take_append_drop 2 (sharedIcSteps image), Machine.run_append,
    hbefore, Option.bind_some]
  simp only [sharedIcSteps, List.drop, Machine.run, classifyingMachine, hlast]
  rfl

/-- An image of two slices. -/
theorem classifying_follows_images_sample :
    ∃ (image : List UInt8) (hlt : image.length < Abi.ilp32.sizeMod)
      (created s : IcPipeline),
      image.length = 30000 ∧
      sampleIcPipeline.create heapComparer_strictWeakOrder.sorting
        (sampleIcCreate.taking image hlt) =
        .ok (IcRetCode.success, created) ∧
      (classifyingMachine heapComparer_strictWeakOrder.sorting created).run
        Machine.anyStep created (sharedIcSteps image) = some s ∧
      ∃ (hrange : IntptrRange .ilp32 created.sdk.icHandle) (c : Classifier)
        (more : List (Int × List UInt8)),
        Classifier.Runs ((sampleIcCreate.taking image hlt).prepare.model hrange)
          created.sdk.callback (sharedIcSteps image) c ∧
        s.plugin.invoked = created.plugin.invoked ++ more ∧
        givenTo created.sdk.icHandle more = c.given ∧
        s.sdk.callback = c.callback ∧
        s.sdk.events = created.sdk.events ++ c.events := by
  obtain ⟨image, hsize⟩ : ∃ image : List UInt8, image.length = 30000 :=
    ⟨List.replicate 30000 5, List.length_replicate⟩
  have hlt : image.length < Abi.ilp32.sizeMod := by
    rw [hsize]
    decide
  obtain ⟨created, hcreate⟩ := sampleIc_created hlt
    heapComparer_strictWeakOrder.sorting
  obtain ⟨s, hrun⟩ := sharedIcSteps_run
    heapComparer_strictWeakOrder.sorting hlt (by omega)
    (hsize.trans_le (by decide)) hcreate
  exact ⟨image, hlt, created, s, hsize, hcreate, hrun,
    classifying_follows_images heapComparer_strictWeakOrder.sorting
      (sampleIcCreate_range hlt) hcreate (sharedIcSteps_apart image _) hrun⟩

end AiEngine.Ref
