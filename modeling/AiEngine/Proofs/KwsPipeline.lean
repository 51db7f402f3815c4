import AiEngine.Proofs.KwsStreams

/-!
# What becomes of the windows of a stream

Between `Create` and `Destroy` nothing happens to the model of a handle and to
the callback but what the windows of the samples can make a stream do, in
their order, whatever fails and whatever else the plugin is asked for
meanwhile, as long as others leave the handle alone. Where everything is there
for the windows of an input, each of them is answered.
-/

namespace AiEngine.Ref

open AiEngine.Lib

/-- Everything is there for a window, of which the MFCC processor makes as
much as a request is, and the calls of others return. -/
structure KwsWindowEnv.Serves (a : Abi) (cast : Cast)
    (atof : List UInt8 → Float32) (window : List Int16) (env : KwsWindowEnv) :
    Prop where
  mfcc : (env.mfcc window).1 = Retcode.success
  audio : ∃ audio, (env.mfcc window).2.data = some audio ∧
    audio.length = defaultSlideStepSize
  encodeHeap : HeapServes env.encodeHeap
  others : ∀ p, ∃ p', KwsPipeline.serve a cast atof p env.others = .ok p'
  transmission : env.transmission = .answered
  process : env.process.Serves
  decodeHeap : HeapServes env.decodeHeap

section

variable {a : Abi} {cast : Cast} {atof : List UInt8 → Float32}
variable {handle : Int} {before : List (Int × List UInt8)}
variable {config : PluginConfig} {means stds : List Float32}
variable {st : KwsStream} {p p' : KWSInference}

variable (a handle before config means stds) in
/-- The plugin has the stream for the handle. -/
def PluginHas (p : KWSInference) (st : KwsStream) : Prop :=
  ∃ l, Listens a p l ∧
    Attends a handle before (st.voice config means stds) st.given l

theorem PluginHas.serve (others : List KWSCall)
    (hapart : ∀ c ∈ others, ¬ c.Concerns a handle) :
    ∀ {p : KWSInference}, PluginHas a handle before config means stds p st →
      KwsPipeline.serve a cast atof p others = .ok p' →
      PluginHas a handle before config means stds p' st := by
  induction others with
  | nil =>
      intro p h hrun
      cases hrun
      exact h
  | cons c others ih =>
      intro p ⟨l, hlistens, hattends⟩ hrun
      obtain ⟨⟨answers, p₁⟩, hsession, hend⟩ := Outcome.bind_eq_ok.mp hrun
      cases hend
      obtain ⟨⟨answer, p₂⟩, hcall, hsession⟩ :=
        Outcome.bind_eq_ok.mp hsession
      obtain ⟨⟨answers, p₃⟩, hrest, hend⟩ := Outcome.bind_eq_ok.mp hsession
      cases hend
      have hfollows := call_follows cast atof hlistens c
      rw [hcall] at hfollows
      obtain ⟨l₂, hl₂, hlistens₂⟩ := hfollows.of_ok
      have hattends₂ := hattends.call_other
        (hapart c (List.mem_cons_self ..)) hl₂
      refine ih (fun c hc => hapart c (List.mem_cons_of_mem _ hc))
        ⟨l₂, hlistens₂, hattends₂⟩ ?_
      exact Outcome.bind_eq_ok.mpr ⟨_, hrest, rfl⟩

variable (a cast handle before config means stds) in
/-- How a request of the client ends. -/
structure ClientRequested (input : CArray .uint16) (env : KWSProcessEnv)
    (st st' : KwsStream) (retCode : Int) (outputInfo : DataInfo)
    (p' : KWSInference) : Prop where
  reaches : KwsStream.Reaches cast means stds input st st'
  events : st'.events = st.events
  plugin : PluginHas a handle before config means stds p' st'
  success : retCode = Retcode.success → ∃ features,
    KwsStream.Features cast means stds input features ∧
      st' = (st.hear features).infer ∧
      KwsListener.result a env handle (st'.voice config means stds) =
        .ok outputInfo

theorem PluginHas.syncProcess {heap : Nat → Bool}
    {dataInfo inputInfo : DataInfo} {input : CArray .uint16}
    {env : KWSProcessEnv} {retCode : Int} {result : Option DataInfo}
    (h : PluginHas a handle before config means stds p st)
    (hrange : IntptrRange a handle)
    (hencode : encodeAudio a heap dataInfo handle input = .ok inputInfo)
    (hrun : p.syncProcess a cast (some inputInfo) env =
      .ok (retCode, result, p')) :
    ∃ st', ClientRequested a cast handle before config means stds input env
      st st' retCode (result.getD ⟨.null, 0⟩) p' := by
  obtain ⟨l, hlistens, hattends⟩ := h
  have hcall : p.call a cast (fun _ => 0) (.syncProcess (some inputInfo) env) =
      .ok (.processed retCode result, p') :=
    Outcome.bind_eq_ok.mpr ⟨_, hrun, rfl⟩
  have hfollows := call_follows cast (fun _ => 0) hlistens
    (.syncProcess (some inputInfo) env)
  rw [hcall] at hfollows
  obtain ⟨l', hl', hlistens'⟩ := hfollows.of_ok
  obtain ⟨st', hreq⟩ := hattends.request hrange hencode hl'
  refine ⟨st', hreq.reaches, hreq.events, ⟨l', hlistens', hreq.attends⟩,
    fun hs => ?_⟩
  obtain ⟨features, outputInfo, hfeatures, hst, hresult, hencoded⟩ :=
    hreq.success hs
  refine ⟨features, hfeatures, hst, ?_⟩
  rw [hresult]
  exact hencoded

/-- `AieClientSyncProcess`, whatever becomes of the request. -/
theorem PluginHas.aieClientSyncProcess {heap : Nat → Bool}
    {dataInfo inputInfo outputInfo : DataInfo} {input : CArray .uint16}
    {env : KwsWindowEnv} {retCode : Int}
    (h : PluginHas a handle before config means stds p st)
    (hrange : IntptrRange a handle)
    (hapart : ∀ c ∈ env.others, ¬ c.Concerns a handle)
    (hencode : encodeAudio a heap dataInfo handle input = .ok inputInfo)
    (hrun : KwsPipeline.aieClientSyncProcess a cast atof p inputInfo env =
      .ok (retCode, outputInfo, p')) :
    ∃ st', ClientRequested a cast handle before config means stds input
      env.process st st' retCode outputInfo p' := by
  have hfailed : Retcode.failure ≠ Retcode.success := by decide
  obtain ⟨p₁, hserve, hrun⟩ := Outcome.bind_eq_ok.mp hrun
  have h₁ := h.serve env.others hapart hserve
  split at hrun
  · cases hrun
    exact ⟨st, .unheard, rfl, h₁, fun hs => absurd hs hfailed⟩
  · obtain ⟨⟨code, result, p₂⟩, hsync, hend⟩ := Outcome.bind_eq_ok.mp hrun
    cases hend
    obtain ⟨st', hreq⟩ := h₁.syncProcess hrange hencode hsync
    exact ⟨st', hreq.reaches, hreq.events, hreq.plugin,
      fun hs => absurd hs hfailed⟩
  · obtain ⟨⟨code, result, p₂⟩, hsync, hend⟩ := Outcome.bind_eq_ok.mp hrun
    cases hend
    exact h₁.syncProcess hrange hencode hsync

theorem PluginHas.aieClientSyncProcess_served {heap : Nat → Bool}
    {dataInfo inputInfo : DataInfo} {input : CArray .uint16}
    {window : List Int16} {env : KwsWindowEnv}
    (h : PluginHas a handle before config means stds p st)
    (hrange : IntptrRange a handle) (hanswers : config.Answers)
    (henv : env.Serves a cast atof window)
    (hapart : ∀ c ∈ env.others, ¬ c.Concerns a handle)
    (hencode : encodeAudio a heap dataInfo handle input = .ok inputInfo)
    {audio : List (ElemType.Val .uint16)} (hdata : input.data = some audio)
    (hlen : audio.length = defaultSlideStepSize) :
    ∃ outputInfo p', KwsPipeline.aieClientSyncProcess a cast atof p inputInfo
      env = .ok (Retcode.success, outputInfo, p') := by
  obtain ⟨p₁, hserve⟩ := henv.others p
  obtain ⟨l, hlistens, hattends⟩ := h.serve env.others hapart hserve
  obtain ⟨outputInfo, p', hsync⟩ := hlistens.syncProcess_served cast
    hattends.voice hattends.adapter hanswers henv.process hrange hencode hdata
    hlen
  refine ⟨outputInfo, p', Outcome.bind_eq_ok.mpr ⟨p₁, hserve, ?_⟩⟩
  rw [henv.transmission]
  exact Outcome.bind_eq_ok.mpr ⟨_, hsync, rfl⟩

end

section

variable {a : Abi} {cast : Cast} {atof : List UInt8 → Float32}
variable {handle : Int} {before : List (Int × List UInt8)}
variable {calls : List KwsEvent} {config : PluginConfig}
variable {means stds : List Float32} {st : KwsStream} {s s' : KwsPipeline}

variable (a handle before calls config means stds) in
/-- The plugin has the stream for the handle of the SDK, and its callback had
the calls. -/
structure Tracks (s : KwsPipeline) (st : KwsStream) : Prop where
  kwsHandle : s.sdk.kwsHandle = handle
  plugin : PluginHas a handle before config means stds s.plugin st
  events : s.sdk.events = calls ++ st.events

/-- Nothing else of the SDK has changed. -/
structure KwsPipeline.SameWindows (s s' : KwsPipeline) : Prop where
  pcmIterator : s'.sdk.pcmIterator = s.sdk.pcmIterator
  samples : s'.samples = s.samples
  taken : s'.taken = s.taken

theorem Tracks.call (h : Tracks a handle before calls config means stds s st)
    (event : KwsEvent) :
    Tracks a handle before calls config means stds
      { s with sdk := { s.sdk with events := s.sdk.events ++ [event] } }
      (st.call event) := by
  refine ⟨h.kwsHandle, h.plugin, ?_⟩
  show s.sdk.events ++ [event] = calls ++ (st.events ++ [event])
  rw [h.events, List.append_assoc]

theorem Tracks.execute
    (h : Tracks a handle before calls config means stds s st)
    (hrange : IntptrRange a handle) {input : CArray .uint16}
    {env : KwsWindowEnv} (hapart : ∀ c ∈ env.others, ¬ c.Concerns a handle)
    {retCode : Int}
    (hrun : s.execute a cast atof input env = .ok (retCode, s')) :
    ∃ st', KwsStream.Executes cast means stds
        (int32s ((List.range config.outputSize).map env.process.output)) input
        st retCode st' ∧
      Tracks a handle before calls config means stds s' st' ∧
      s.SameWindows s' := by
  obtain rfl := h.kwsHandle
  simp only [KwsPipeline.execute] at hrun
  split at hrun
  · cases hrun
  · cases hrun
    exact ⟨_, .failed (by decide) .unheard, h.call _, rfl, rfl, rfl⟩
  · next inputInfo hencode =>
      obtain ⟨⟨code, outputInfo, p'⟩, hsync, hrun⟩ :=
        Outcome.bind_eq_ok.mp hrun
      obtain ⟨st₁, hreq⟩ := h.plugin.aieClientSyncProcess hrange hapart
        hencode hsync
      have h₁ : Tracks a s.sdk.kwsHandle before calls config means stds
          { s with plugin := p' } st₁ := by
        refine ⟨h.kwsHandle, hreq.plugin, ?_⟩
        rw [hreq.events]
        exact h.events
      dsimp only at hrun
      split at hrun
      · cases hrun
        exact ⟨_, .failed (by decide) hreq.reaches, h₁.call _, rfl, rfl, rfl⟩
      · next hcode =>
          split at hrun
          · cases hrun
            exact ⟨_, .failed (by decide) hreq.reaches, h₁.call _, rfl, rfl,
              rfl⟩
          obtain ⟨features, hfeatures, rfl, hencoded⟩ :=
            hreq.success (not_not.mp hcode)
          obtain ⟨-, -, hdecode⟩ :=
            decodeResult_carried hrange hencoded env.decodeHeap
          rcases hdecode with hfail | hsame
          · rw [hfail] at hrun
            cases hrun
            exact ⟨_, .failed (by decide) hreq.reaches, h₁.call _, rfl, rfl,
              rfl⟩
          · rw [hsame] at hrun
            dsimp only at hrun
            rw [if_neg (not_not.mpr rfl)] at hrun
            cases hrun
            exact ⟨_, .delivered hfeatures, h₁.call _, rfl, rfl, rfl⟩

/-- `Execute` of a window that everything is there for. -/
theorem Tracks.execute_served
    (h : Tracks a handle before calls config means stds s st)
    (hrange : IntptrRange a handle) (hanswers : config.Answers)
    {window : List Int16} {env : KwsWindowEnv}
    (henv : env.Serves a cast atof window)
    (hapart : ∀ c ∈ env.others, ¬ c.Concerns a handle) :
    ∃ s' audio, (env.mfcc window).2.data = some audio ∧
      s.execute a cast atof (env.mfcc window).2 env =
        .ok (KwsRetcode.success, s') ∧
      Tracks a handle before calls config means stds s'
        (st.answer cast means stds audio
          (int32s ((List.range config.outputSize).map env.process.output))) ∧
      s.SameWindows s' := by
  obtain ⟨audio, hdata, hlen⟩ := henv.audio
  have hsize : (env.mfcc window).2.size = defaultSlideStepSize :=
    ((env.mfcc window).2.owns audio hdata).symm.trans hlen
  obtain ⟨inputInfo, hencode⟩ : ∃ inputInfo, encodeAudio a env.encodeHeap
      ⟨.null, 0⟩ handle (env.mfcc window).2 = .ok inputInfo :=
    handleArray_served henv.encodeHeap ⟨.null, 0⟩ handle
      ⟨by rw [hsize]; decide, by rw [hdata]; rfl⟩ (by rw [hsize]; decide)
  obtain ⟨outputInfo, p', hsync⟩ := h.plugin.aieClientSyncProcess_served
    hrange hanswers henv hapart hencode hdata hlen
  obtain ⟨st', hreq⟩ := h.plugin.aieClientSyncProcess hrange hapart hencode
    hsync
  obtain ⟨features, hfeatures, rfl, hresult⟩ := hreq.success rfl
  obtain ⟨hnull, hlength, -⟩ :=
    decodeResult_carried hrange hresult env.decodeHeap
  have hdecode := decodeResult_served hrange hresult henv.decodeHeap
  have hvalid : ¬ KWSSdkImpl.invalidOutput outputInfo :=
    not_or.mpr ⟨hnull, hlength⟩
  have hsame : s.sdk.kwsHandle = handle := h.kwsHandle
  obtain ⟨s', hrun⟩ : ∃ s', s.execute a cast atof (env.mfcc window).2 env =
      .ok (KwsRetcode.success, s') := by
    simp only [KwsPipeline.execute]
    rw [hsame, hencode]
    dsimp only
    rw [hsync, Outcome.ok_bind]
    dsimp only
    rw [if_neg (not_not.mpr rfl), if_neg hvalid, hdecode]
    dsimp only
    rw [if_neg (not_not.mpr rfl)]
    exact ⟨_, rfl⟩
  obtain ⟨st', hexecutes, htracks, hkept⟩ := h.execute hrange hapart hrun
  refine ⟨s', audio, hdata, hrun, ?_, hkept⟩
  generalize hcode : KwsRetcode.success = retCode at hexecutes
  cases hexecutes with
  | failed hfailed => exact absurd hcode.symm hfailed
  | delivered hfeatures =>
      obtain ⟨hdata', -⟩ := hfeatures
      obtain rfl := Option.some.inj (hdata.symm.trans hdata')
      exact htracks

end

/-! ## The windows in order

The loop takes the windows that are complete, one after the other, and stops
at the first failure. The stream has then seen exactly the windows that were
taken. -/

section

variable {a : Abi} {cast : Cast} {atof : List UInt8 → Float32}
variable {handle : Int} {before : List (Int × List UInt8)}
variable {calls : List KwsEvent} {config : PluginConfig}
variable {means stds : List Float32} {envs : Nat → KwsWindowEnv}
variable {s s' : KwsPipeline} {retCode : Int}

variable (a cast handle before calls config means stds envs) in
/-- The windows that were taken made the stream, and the iterator goes on with
the next one. -/
structure Spots (s : KwsPipeline) : Prop where
  stream : ∃ st, KwsStream.After cast means stds config.outputSize envs
      (Window.nth kwsStepSize kwsWindowSize s.samples) s.taken st ∧
    Tracks a handle before calls config means stds s st
  iterator : ∃ it, s.sdk.pcmIterator = some it ∧
    it.Phase kwsStepSize kwsWindowSize s.samples (s.taken * kwsStepSize)
  le : s.taken ≤ KwsRun.windowsOf s.samples.length

theorem Spots.move
    (h : Spots a cast handle before calls config means stds envs s)
    {it : PCMIterator}
    (hphase : it.Phase kwsStepSize kwsWindowSize s.samples
      (s.taken * kwsStepSize)) :
    Spots a cast handle before calls config means stds envs
      { s with sdk := { s.sdk with pcmIterator := some it } } := by
  obtain ⟨st, hafter, htracks⟩ := h.stream
  exact ⟨⟨st, hafter, htracks.kwsHandle, htracks.plugin, htracks.events⟩,
    ⟨it, rfl, hphase⟩, h.le⟩

/-- What the iterator accepts comes after the windows that are complete. -/
theorem Spots.accept
    (h : Spots a cast handle before calls config means stds envs s)
    (input : List Int16) {it : PCMIterator}
    (hphase : it.Phase kwsStepSize kwsWindowSize (s.samples ++ input)
      (s.taken * kwsStepSize)) :
    Spots a cast handle before calls config means stds envs
      { s with
        sdk := { s.sdk with pcmIterator := some it }
        samples := s.samples ++ input } := by
  obtain ⟨st, hafter, htracks⟩ := h.stream
  have hlen : (s.samples ++ input).length =
      s.samples.length + input.length := List.length_append
  refine ⟨⟨st, hafter.congr ?_, htracks.kwsHandle, htracks.plugin,
    htracks.events⟩, ⟨it, rfl, hphase⟩, ?_⟩
  · intro k hk
    refine (Window.nth_append input ?_).symm
    exact (Window.lt_count kws_valid.stepSize).mp (Nat.lt_of_lt_of_le hk h.le)
  · refine Nat.le_trans h.le (Window.count_mono ?_)
    show s.samples.length ≤ (s.samples ++ input).length
    omega

theorem Spots.executeAll (hrange : IntptrRange a handle)
    (hapart : ∀ k, ∀ c ∈ (envs k).others, ¬ c.Concerns a handle)
    (rounds : Nat) :
    ∀ {s : KwsPipeline},
      Spots a cast handle before calls config means stds envs s →
      s.executeAll a cast atof envs rounds = .ok (retCode, s') →
      Spots a cast handle before calls config means stds envs s' := by
  induction rounds with
  | zero =>
      intro s _ hrun
      cases hrun
  | succ rounds ih =>
      intro s h hrun
      obtain ⟨it, hit, hphase⟩ := h.iterator
      obtain ⟨it₁, hhas, hready⟩ := hphase.hasNext (a := a) kws_valid
      rw [KwsPipeline.executeAll, hit] at hrun
      dsimp only at hrun
      rw [hhas] at hrun
      by_cases hmore :
          kwsWindowSize ≤ s.samples.length - s.taken * kwsStepSize
      swap
      · rw [decide_eq_false hmore] at hrun
        cases hrun
        exact h.move (.inl hready)
      obtain ⟨it₂, htake, hphase₂⟩ := hready.next (a := a) kws_valid hmore
      rw [decide_eq_true hmore] at hrun
      dsimp only at hrun
      rw [htake] at hrun
      have hfits : s.taken < KwsRun.windowsOf s.samples.length := by
        have hpos := kws_valid.windowSize
        refine (Window.lt_count kws_valid.stepSize).mpr ?_
        omega
      have hplace : (s.taken + 1) * kwsStepSize =
          s.taken * kwsStepSize + kwsStepSize := Nat.succ_mul _ _
      rw [← hplace] at hphase₂
      obtain ⟨st, hafter, htracks⟩ := h.stream
      dsimp only at hrun
      split at hrun
      · next hmfcc =>
          cases hrun
          exact ⟨⟨st, .unprocessed hafter hmfcc, htracks.kwsHandle,
            htracks.plugin, htracks.events⟩, ⟨it₂, rfl, hphase₂⟩, hfits⟩
      · next hmfcc =>
          have hmfcc := not_not.mp hmfcc
          obtain ⟨⟨code, s₂⟩, hexecute, hrun⟩ := Outcome.bind_eq_ok.mp hrun
          have hnext : Tracks a handle before calls config means stds
              { s with
                sdk := { s.sdk with pcmIterator := some it₂ }
                taken := s.taken + 1 } st :=
            ⟨htracks.kwsHandle, htracks.plugin, htracks.events⟩
          obtain ⟨st₂, hexecutes, htracks₂, hsame⟩ :=
            hnext.execute hrange (hapart s.taken) hexecute
          have h₂ : Spots a cast handle before calls config means stds envs
              s₂ := by
            refine ⟨⟨st₂, ?_, htracks₂⟩, ⟨it₂, hsame.pcmIterator, ?_⟩, ?_⟩
            · rw [hsame.samples, hsame.taken]
              exact .processed hafter hmfcc hexecutes
            · rw [hsame.samples, hsame.taken]
              exact hphase₂
            · rw [hsame.samples, hsame.taken]
              exact hfits
          dsimp only at hrun
          split at hrun
          · cases hrun
            exact h₂
          · exact ih h₂ hrun

theorem setInput_cases {it : PCMIterator} {xs : List Int16} {q : Nat}
    (h : it.Phase kwsStepSize kwsWindowSize xs q) (ys : List Int16) :
    (∃ retCode it', it.setInput a ys = some (retCode, it') ∧
        retCode ≠ Retcode.success ∧
        it'.Phase kwsStepSize kwsWindowSize xs q) ∨
      ∃ it', it.setInput a ys = some (Retcode.success, it') ∧
        it'.Phase kwsStepSize kwsWindowSize (xs ++ ys) q := by
  obtain ⟨it₁, hhas, hready⟩ := h.hasNext (a := a) kws_valid
  by_cases hmore : kwsWindowSize ≤ xs.length - q
  · left
    rw [decide_eq_true hmore] at hhas
    refine ⟨Retcode.failure, it₁, ?_, by decide, .inl hready⟩
    rw [PCMIterator.setInput, if_neg (not_not.mpr h.sized.initialized), hhas]
  by_cases hempty : ys.length = 0
  · left
    rw [decide_eq_false hmore] at hhas
    refine ⟨Retcode.nullParam, it₁, ?_, by decide, .inl hready⟩
    rw [PCMIterator.setInput, if_neg (not_not.mpr h.sized.initialized), hhas]
    exact if_pos hempty
  · right
    exact h.setInput kws_valid (by decide) hmore (Nat.pos_of_ne_zero hempty)

theorem Spots.syncExecute (hrange : IntptrRange a handle)
    (hapart : ∀ k, ∀ c ∈ (envs k).others, ¬ c.Concerns a handle)
    (h : Spots a cast handle before calls config means stds envs s)
    {input : List Int16}
    (hrun : s.syncExecute a cast atof envs input = .ok (retCode, s')) :
    Spots a cast handle before calls config means stds envs s' := by
  obtain ⟨it, hit, hphase⟩ := h.iterator
  rw [KwsPipeline.syncExecute] at hrun
  split at hrun
  · cases hrun
    exact h
  split at hrun
  · cases hrun
    exact h
  rw [hit] at hrun
  dsimp only at hrun
  rcases setInput_cases (a := a) hphase input with
    ⟨code, it₁, hset, hcode, hphase₁⟩ | ⟨it₁, hset, hphase₁⟩
  · rw [hset] at hrun
    dsimp only at hrun
    rw [if_pos hcode] at hrun
    cases hrun
    exact h.move hphase₁
  · rw [hset] at hrun
    dsimp only at hrun
    rw [if_neg (not_not.mpr rfl)] at hrun
    exact (h.accept input hphase₁).executeAll hrange hapart _ hrun

variable (a cast handle before calls config means stds envs) in
/-- The windows from `first` on were answered, and the iterator goes on with
the next one. -/
structure Answers (first : Nat) (st : KwsStream) (s : KwsPipeline) : Prop where
  stream : ∃ st', KwsStream.Answered cast means stds config.outputSize envs
      (Window.nth kwsStepSize kwsWindowSize s.samples) first st
      (s.taken - first) st' ∧
    Tracks a handle before calls config means stds s st'
  iterator : ∃ it, s.sdk.pcmIterator = some it ∧
    it.Phase kwsStepSize kwsWindowSize s.samples (s.taken * kwsStepSize)
  le : s.taken ≤ KwsRun.windowsOf s.samples.length
  first_le : first ≤ s.taken

/-- One round of the loop, of a window that everything is there for. -/
theorem Answers.round (hrange : IntptrRange a handle)
    (hanswers : config.Answers)
    (hapart : ∀ k, ∀ c ∈ (envs k).others, ¬ c.Concerns a handle)
    {first : Nat} {st : KwsStream}
    (h : Answers a cast handle before calls config means stds envs first st s)
    (hserves : (envs s.taken).Serves a cast atof
      (Window.nth kwsStepSize kwsWindowSize s.samples s.taken))
    (hfits : s.taken < KwsRun.windowsOf s.samples.length) {it : PCMIterator}
    (hphase : it.Phase kwsStepSize kwsWindowSize s.samples
      (s.taken * kwsStepSize + kwsStepSize)) :
    ∃ s', KwsPipeline.execute a cast atof
        { s with
          sdk := { s.sdk with pcmIterator := some it }
          taken := s.taken + 1 }
        ((envs s.taken).mfcc
          (Window.nth kwsStepSize kwsWindowSize s.samples s.taken)).2
        (envs s.taken) = .ok (KwsRetcode.success, s') ∧
      s'.samples = s.samples ∧ s'.taken = s.taken + 1 ∧
      Answers a cast handle before calls config means stds envs first st
        s' := by
  obtain ⟨st₁, hanswered, htracks⟩ := h.stream
  have hnext : Tracks a handle before calls config means stds
      { s with
        sdk := { s.sdk with pcmIterator := some it }
        taken := s.taken + 1 } st₁ :=
    ⟨htracks.kwsHandle, htracks.plugin, htracks.events⟩
  obtain ⟨s', audio, hdata, hrun, htracks', hsame⟩ :=
    hnext.execute_served hrange hanswers hserves (hapart s.taken)
  have hsamples : s'.samples = s.samples := hsame.samples
  have htaken : s'.taken = s.taken + 1 := hsame.taken
  have hplace : first + (s.taken - first) = s.taken :=
    Nat.add_sub_of_le h.first_le
  have hcount : s.taken + 1 - first = s.taken - first + 1 :=
    Nat.succ_sub h.first_le
  refine ⟨s', hrun, hsamples, htaken, ?_⟩
  constructor
  · rw [hsamples, htaken, hcount]
    have hdata' : ((envs (first + (s.taken - first))).mfcc
        (Window.nth kwsStepSize kwsWindowSize s.samples
          (first + (s.taken - first)))).2.data = some audio := by
      rw [hplace]
      exact hdata
    have hmore := hanswered.next hdata'
    rw [hplace] at hmore
    exact ⟨_, hmore, htracks'⟩
  · rw [hsamples, htaken, Nat.succ_mul]
    exact ⟨it, hsame.pcmIterator, hphase⟩
  · rw [hsamples, htaken]
    exact hfits
  · rw [htaken]
    exact Nat.le_succ_of_le h.first_le

/-- The loop takes and answers every window, if everything is there for each
of them. -/
theorem Answers.executeAll_served (hrange : IntptrRange a handle)
    (hanswers : config.Answers)
    (hapart : ∀ k, ∀ c ∈ (envs k).others, ¬ c.Concerns a handle)
    {first : Nat} {st : KwsStream} (rounds : Nat) :
    ∀ {s : KwsPipeline},
      Answers a cast handle before calls config means stds envs first st s →
      (∀ k, s.taken ≤ k → k < KwsRun.windowsOf s.samples.length →
        (envs k).Serves a cast atof
          (Window.nth kwsStepSize kwsWindowSize s.samples k)) →
      KwsRun.windowsOf s.samples.length - s.taken < rounds →
      ∃ s', s.executeAll a cast atof envs rounds =
          .ok (KwsRetcode.success, s') ∧
        s'.samples = s.samples ∧
        s'.taken = KwsRun.windowsOf s.samples.length ∧
        Answers a cast handle before calls config means stds envs first st
          s' := by
  induction rounds with
  | zero => exact fun _ _ hrounds => absurd hrounds (Nat.not_lt_zero _)
  | succ rounds ih =>
      intro s h hserves hrounds
      obtain ⟨it, hit, hphase⟩ := h.iterator
      obtain ⟨it₁, hhas, hready⟩ := hphase.hasNext (a := a) kws_valid
      rw [KwsPipeline.executeAll, hit]
      dsimp only
      rw [hhas]
      by_cases hmore :
          kwsWindowSize ≤ s.samples.length - s.taken * kwsStepSize
      swap
      · have hall : s.taken = KwsRun.windowsOf s.samples.length := by
          refine Nat.le_antisymm h.le (Nat.not_lt.mp fun hlt => hmore ?_)
          have hfit := (Window.lt_count kws_valid.stepSize).mp hlt
          omega
        obtain ⟨st', hanswered, htracks⟩ := h.stream
        rw [decide_eq_false hmore]
        exact ⟨_, rfl, rfl, hall, ⟨st', hanswered, htracks.kwsHandle,
          htracks.plugin, htracks.events⟩, ⟨it₁, rfl, .inl hready⟩, h.le,
          h.first_le⟩
      obtain ⟨it₂, htake, hphase₂⟩ := hready.next (a := a) kws_valid hmore
      have hpos := kws_valid.windowSize
      have hfits : s.taken < KwsRun.windowsOf s.samples.length :=
        (Window.lt_count kws_valid.stepSize).mpr (by omega)
      have henv := hserves s.taken (Nat.le_refl _) hfits
      obtain ⟨s₂, hexecute, hsamples, htaken, h₂⟩ :=
        h.round hrange hanswers hapart henv hfits hphase₂
      rw [decide_eq_true hmore]
      dsimp only
      rw [htake]
      dsimp only
      rw [← Window.nth, if_neg (not_not.mpr henv.mfcc)]
      obtain ⟨s', hrun, hsamples', htaken', h'⟩ := ih h₂
        (by
          rw [hsamples, htaken]
          exact fun k hk => hserves k (Nat.le_of_succ_le hk))
        (by rw [hsamples, htaken]; omega)
      rw [hsamples] at hsamples' htaken'
      refine ⟨s', Outcome.bind_eq_ok.mpr ⟨_, hexecute, ?_⟩, hsamples', htaken',
        h'⟩
      exact (if_neg (not_not.mpr rfl)).trans hrun

/-- `SyncExecute` of an input whose windows all find everything, when no
window is left from before. -/
theorem Spots.syncExecute_served (hrange : IntptrRange a handle)
    (hanswers : config.Answers)
    (hapart : ∀ k, ∀ c ∈ (envs k).others, ¬ c.Concerns a handle)
    (h : Spots a cast handle before calls config means stds envs s)
    (hhandle : handle ≠ invalidKwsHandle) (hcallback : s.sdk.callback = true)
    (hall : s.taken = KwsRun.windowsOf s.samples.length) {input : List Int16}
    (hpos : 0 < input.length)
    (hserves : ∀ k, s.taken ≤ k →
      k < KwsRun.windowsOf (s.samples ++ input).length →
      (envs k).Serves a cast atof
        (Window.nth kwsStepSize kwsWindowSize (s.samples ++ input) k)) :
    ∃ st s' st', s.syncExecute a cast atof envs input =
        .ok (KwsRetcode.success, s') ∧
      s'.samples = s.samples ++ input ∧
      s'.taken = KwsRun.windowsOf s'.samples.length ∧
      KwsStream.After cast means stds config.outputSize envs
        (Window.nth kwsStepSize kwsWindowSize s.samples) s.taken st ∧
      Tracks a handle before calls config means stds s st ∧
      KwsStream.Answered cast means stds config.outputSize envs
        (Window.nth kwsStepSize kwsWindowSize s'.samples) s.taken st
        (s'.taken - s.taken) st' ∧
      Tracks a handle before calls config means stds s' st' := by
  obtain ⟨it, hit, hphase⟩ := h.iterator
  obtain ⟨st, hafter, htracks⟩ := h.stream
  have hless : ¬ kwsWindowSize ≤ s.samples.length - s.taken * kwsStepSize := by
    have hwindow := kws_valid.windowSize
    intro hmore
    refine Nat.lt_irrefl s.taken ?_
    rw [hall] at hmore ⊢
    exact (Window.lt_count kws_valid.stepSize).mpr (by omega)
  obtain ⟨it₁, hset, hphase₁⟩ := hphase.setInput (a := a) kws_valid (by decide)
    hless hpos
  have hle : s.taken ≤ KwsRun.windowsOf (s.samples ++ input).length := by
    rw [hall, List.length_append]
    exact Window.count_mono (Nat.le_add_right _ _)
  have hstart : Answers a cast handle before calls config means stds envs
      s.taken st
      { s with
        sdk := { s.sdk with pcmIterator := some it₁ }
        samples := s.samples ++ input } := by
    refine ⟨⟨st, ?_, htracks.kwsHandle, htracks.plugin, htracks.events⟩,
      ⟨it₁, rfl, hphase₁⟩, hle, Nat.le_refl _⟩
    rw [Nat.sub_self]
    exact .none
  have hrounds : KwsRun.windowsOf (s.samples ++ input).length - s.taken <
      input.length + 1 := by
    have hgain := Window.count_add_le (W := kwsWindowSize)
      (n := s.samples.length) kws_valid.stepSize input.length
    rw [hall, List.length_append, KwsRun.windowsOf, KwsRun.windowsOf]
    omega
  obtain ⟨s', hrun, hsamples, htaken, h'⟩ :=
    hstart.executeAll_served hrange hanswers hapart _ hserves hrounds
  obtain ⟨st', hanswered, htracks'⟩ := h'.stream
  refine ⟨st, s', st', ?_, hsamples, ?_, hafter, htracks, hanswered, htracks'⟩
  · rw [KwsPipeline.syncExecute, if_neg (htracks.kwsHandle ▸ hhandle),
      if_neg (not_not.mpr hcallback), hit]
    dsimp only
    rw [hset]
    exact (if_neg (not_not.mpr rfl)).trans hrun
  · rw [htaken, hsamples]

/-- A request of another client that is answered between two calls. -/
def KwsStep.Apart (a : Abi) (handle : Int) (_ : KwsPipeline) :
    KwsStep → Prop
  | .setCallback => True
  | .syncExecute _ => True
  | .others calls => ∀ c ∈ calls, ¬ c.Concerns a handle

theorem Spots.step (hrange : IntptrRange a handle)
    (hapart : ∀ k, ∀ c ∈ (envs k).others, ¬ c.Concerns a handle)
    (h : Spots a cast handle before calls config means stds envs s)
    {i : KwsStep} (hi : i.Apart a handle s)
    (hstep : s.step a cast atof envs i = some s') :
    Spots a cast handle before calls config means stds envs s' := by
  cases i with
  | setCallback =>
      cases hstep
      obtain ⟨st, hafter, htracks⟩ := h.stream
      exact ⟨⟨st, hafter, htracks.kwsHandle, htracks.plugin, htracks.events⟩,
        h.iterator, h.le⟩
  | syncExecute input =>
      simp only [KwsPipeline.step] at hstep
      split at hstep
      · next retCode s₁ hrun =>
          cases hstep
          exact h.syncExecute hrange hapart hrun
      · cases hstep
      · cases hstep
  | others others =>
      simp only [KwsPipeline.step] at hstep
      split at hstep
      · next p' hrun =>
          cases hstep
          obtain ⟨st, hafter, htracks⟩ := h.stream
          exact ⟨⟨st, hafter, htracks.kwsHandle,
            htracks.plugin.serve others hi hrun, htracks.events⟩,
            h.iterator, h.le⟩
      · cases hstep
      · cases hstep

end

section

variable {a : Abi} {cast : Cast} {atof : List UInt8 → Float32}
variable {p p' : KWSInference} {s s' : KwsPipeline}

theorem serve_listens (others : List KWSCall) :
    ∀ {p : KWSInference} {l : KwsListener}, Listens a p l →
      KwsPipeline.serve a cast atof p others = .ok p' →
      ∃ l', Listens a p' l' := by
  intro p l hlistens hrun
  obtain ⟨⟨answers, p₁⟩, hsession, hend⟩ := Outcome.bind_eq_ok.mp hrun
  cases hend
  have hfollows := session_follows
    (fun s l c h => call_follows cast atof h c) others hlistens
  rw [hsession] at hfollows
  obtain ⟨l', -, hlistens'⟩ := hfollows.of_ok
  exact ⟨l', hlistens'⟩

theorem voice_cases {env : KWSPrepareEnv} {v : KwsVoice}
    (h : env.voice atof = some v) :
    ∃ config means stds, KWSInference.buildConfig env = some config ∧
      kwsTables atof env.norm = some (means, stds) ∧
      v = KwsStream.silent.voice config means stds := by
  cases hconfig : KWSInference.buildConfig env with
  | none =>
      rw [KWSPrepareEnv.voice, hconfig] at h
      cases h
  | some config =>
      rw [voice_eq atof env hconfig] at h
      split at h
      · obtain ⟨⟨means, stds⟩, htables, rfl⟩ := Option.map_eq_some_iff.mp h
        exact ⟨config, means, stds, rfl, htables, rfl⟩
      · cases h

/-- A `Prepare` that tells a handle has made its voice. -/
theorem prepare_told {l l' : KwsListener} {env : KWSPrepareEnv}
    {outputInfo : DataInfo}
    (hrun : l.prepare a atof env ⟨.null, 0⟩ =
      .ok (.prepared Retcode.success outputInfo, l'))
    (htold : outputInfo.data ≠ .null) :
    ∃ handle v, env.init = some handle ∧ env.voice atof = some v ∧
      encodeHandle a env.heap ⟨.null, 0⟩ handle = .ok outputInfo ∧
      l'.voices.lookup handle = some v ∧ l'.adapter = true := by
  simp only [KwsListener.prepare] at hrun
  split at hrun
  · cases hrun
  split at hrun
  · cases hrun
  · next handle hinit =>
      split at hrun
      · cases hrun
        exact absurd rfl htold
      · next hnew =>
          split at hrun
          · cases hrun
          · next v hvoice =>
              obtain ⟨⟨code, out⟩, hencode, hend⟩ :=
                Outcome.bind_eq_ok.mp hrun
              cases hend
              refine ⟨handle, v, hinit, hvoice,
                encoded_success (processEncode_code _ _) hencode, ?_, rfl⟩
              show (l.voices.insertNew handle v).lookup handle = _
              rw [Table.insertNew, if_neg hnew, Table.lookup_insert_if,
                if_pos rfl]

theorem PluginHas.prepare {l : KwsListener} (hlistens : Listens a p l)
    {env : KwsCreateEnv} {outputInfo : DataInfo}
    (hrun : KwsPipeline.aieClientPrepare a cast atof p env =
      .ok (Retcode.success, outputInfo, p'))
    (htold : outputInfo.data ≠ .null) :
    ∃ handle config means stds, env.prepare.init = some handle ∧
      KWSInference.buildConfig env.prepare = some config ∧
      kwsTables atof env.prepare.norm = some (means, stds) ∧
      encodeHandle a env.prepare.heap ⟨.null, 0⟩ handle = .ok outputInfo ∧
      PluginHas a handle p'.invoked config means stds p' .silent := by
  obtain ⟨p₁, hserve, hrun⟩ := Outcome.bind_eq_ok.mp hrun
  obtain ⟨l₁, hlistens₁⟩ := serve_listens env.others hlistens hserve
  split at hrun
  · cases hrun
  · obtain ⟨r, -, hend⟩ := Outcome.bind_eq_ok.mp hrun
    cases hend
  · have hcall : p₁.call a cast atof (.prepare env.prepare ⟨.null, 0⟩) =
        .ok (.prepared Retcode.success outputInfo, p') :=
      Outcome.bind_eq_ok.mpr ⟨_, hrun, rfl⟩
    have hfollows := prepare_follows cast atof hlistens₁ env.prepare
      ⟨.null, 0⟩
    rw [hcall] at hfollows
    obtain ⟨l', hl', hlistens'⟩ := hfollows.of_ok
    obtain ⟨handle, v, hinit, hvoice, hencode, hlookup, hadapter⟩ :=
      prepare_told hl' htold
    obtain ⟨config, means, stds, hconfig, htables, rfl⟩ := voice_cases hvoice
    refine ⟨handle, config, means, stds, hinit, hconfig, htables, hencode,
      l', hlistens', hlookup, hadapter, [], ?_, rfl⟩
    rw [List.append_nil, hlistens'.invoked]

theorem create_spots {l : KwsListener} (hlistens : Listens a s.plugin l)
    {env : KwsCreateEnv}
    (hrange : ∀ handle, env.prepare.init = some handle →
      IntptrRange a handle)
    (hrun : s.create a cast atof env = .ok (KwsRetcode.success, s'))
    (envs : Nat → KwsWindowEnv) :
    ∃ config means stds,
      KWSInference.buildConfig env.prepare = some config ∧
      kwsTables atof env.prepare.norm = some (means, stds) ∧
      IntptrRange a s'.sdk.kwsHandle ∧
      Spots a cast s'.sdk.kwsHandle s'.plugin.invoked s'.sdk.events config
        means stds envs s' := by
  simp only [KwsPipeline.create] at hrun
  split at hrun
  · cases hrun
  split at hrun
  · cases hrun
  · next hcode =>
      have hcode := not_not.mp hcode
      obtain ⟨it, hit, hphase⟩ := KWSSdkImpl.initComponents_spec kws_valid
        (Prod.ext hcode rfl : s.sdk.initComponents a env.reply =
          (KwsRetcode.success, (s.sdk.initComponents a env.reply).2))
      split at hrun
      · cases hrun
      split at hrun
      · cases hrun
      obtain ⟨⟨retCode, outputInfo, p'⟩, hprepare, hrun⟩ :=
        Outcome.bind_eq_ok.mp hrun
      dsimp only at hrun
      split at hrun
      · cases hrun
      · next hret =>
          obtain rfl := not_not.mp hret
          split at hrun
          · cases hrun
          · next hvalid =>
              obtain ⟨handle, config, means, stds, hinit, hconfig, htables,
                hencode, hplugin⟩ := PluginHas.prepare hlistens hprepare
                  fun hnull => hvalid (.inl hnull)
              have hinRange := hrange handle hinit
              rcases decodeHandle_carried hinRange hencode env.decodeHeap with
                hfail | hsame
              · rw [hfail] at hrun
                cases hrun
              · rw [hsame] at hrun
                cases hrun
                refine ⟨config, means, stds, hconfig, htables, hinRange,
                  ⟨.silent, .silent, rfl, hplugin, ?_⟩,
                  ⟨it, hit, ?_⟩, Nat.zero_le _⟩
                · exact (List.append_nil _).symm
                · show it.Phase kwsStepSize kwsWindowSize [] (0 * kwsStepSize)
                  rw [Nat.zero_mul]
                  exact hphase

end

/-! ## A sample

A first handle is made and then everything is there for each window, while
another client releases a handle of its own.
-/

/-- Everything is there for a first handle, and the files of the norm
processor have forty zeros. -/
def sampleCreate : KwsCreateEnv where
  reply := ⟨true, 0, true, some fun _ => 0, 0, 1, 0, ⟨.null, 0⟩, 0, 0⟩
  others := []
  transmission := .answered
  prepare := {
    newAdapter := true
    init := some 7
    inputAddr := ⟨0, 1, 4000⟩
    outputAddr := ⟨0, 2, 4⟩
    slideBuffer := true
    convertBuffer := true
    norm := ⟨true, true, true, true, true,
      fun _ => some (List.replicate 40 NormProcessor.numberDelimiter)⟩
    heap := fun _ => true }
  decodeHeap := fun _ => true

/-- A client and a server before anything is done. -/
def samplePipeline : KwsPipeline := ⟨.new, .new, [], 0⟩

theorem sample_tables :
    (kwsTables (fun _ => 0) sampleCreate.prepare.norm).isSome = true := by
  decide +kernel

theorem sample_prepared (cast : Cast) :
    ∃ p', KwsPipeline.aieClientPrepare .lp64 cast (fun _ => 0) .new
        sampleCreate =
      .ok (Retcode.success,
        ⟨.block [7, 0, 0, 0, 0, 0, 0, 0, 8, 0, 0, 0, 0, 0, 0, 0], 16⟩, p') := by
  have hencode : encodeHandle .lp64 sampleCreate.prepare.heap ⟨.null, 0⟩ 7 =
      .ok ⟨.block [7, 0, 0, 0, 0, 0, 0, 0, 8, 0, 0, 0, 0, 0, 0, 0], 16⟩ := by
    decide +kernel
  have hsame : KwsPipeline.aieClientPrepare .lp64 cast (fun _ => 0) .new
      sampleCreate =
    KWSInference.new.prepare .lp64 (fun _ => 0) sampleCreate.prepare
      ⟨.null, 0⟩ := by
    have hserve : KwsPipeline.serve .lp64 cast (fun _ => 0) .new
        sampleCreate.others = .ok .new := rfl
    have hanswered : sampleCreate.transmission = .answered := rfl
    rw [KwsPipeline.aieClientPrepare, hserve, Outcome.ok_bind, hanswered]
  rcases initWorkplace_spec (a := .lp64) (fun _ => 0)
      ⟨4000, 4, 1, 2⟩ sampleCreate.prepare with
    ⟨means, stds, w, -, -, hrun, -⟩ | ⟨hnone, -⟩
  · have hconfig : KWSInference.buildConfig sampleCreate.prepare =
        some ⟨4000, 4, 1, 2⟩ := rfl
    have hinit : sampleCreate.prepare.init = some 7 := rfl
    have hadapter : KWSInference.new.plugin.getAdapter
        sampleCreate.prepare.newAdapter = some ⟨∅⟩ := rfl
    have hfresh : ¬ (7 : Int) ∈ KWSInference.new.plugin.handles :=
      Finmap.notMem_empty
    rw [hsame, KWSInference.prepare, hadapter, hinit]
    dsimp only
    rw [if_neg hfresh, hconfig]
    dsimp only
    rw [hrun]
    dsimp only
    rw [hencode]
    exact ⟨_, rfl⟩
  · have htables := sample_tables
    rw [hnone rfl] at htables
    cases htables

theorem sample_created (cast : Cast) :
    ∃ created, samplePipeline.create .lp64 cast (fun _ => 0) sampleCreate =
      .ok (KwsRetcode.success, created) ∧ created.sdk.kwsHandle = 7 ∧
      created.samples = [] ∧ created.taken = 0 := by
  obtain ⟨p', hprepare⟩ := sample_prepared cast
  have hdecode : decodeHandle .lp64 sampleCreate.decodeHeap
      ⟨.block [7, 0, 0, 0, 0, 0, 0, 0, 8, 0, 0, 0, 0, 0, 0, 0], 16⟩ =
      .ok 7 := by
    decide +kernel
  have hinit : (samplePipeline.sdk.initComponents .lp64
      sampleCreate.reply).1 = KwsRetcode.success := rfl
  have hplugin : samplePipeline.plugin = .new := rfl
  rw [KwsPipeline.create, if_neg (by decide)]
  dsimp only
  rw [if_neg (not_not.mpr hinit), if_neg (by decide), if_neg (by decide),
    hplugin, hprepare, Outcome.ok_bind]
  dsimp only
  rw [if_neg (by decide), if_neg (by decide), hdecode]
  exact ⟨_, rfl, rfl, rfl, rfl⟩

/-- Another client releases its handle. -/
def releaseNine : KWSCall :=
  .release false ⟨.block [9, 0, 0, 0, 0, 0, 0, 0, 8, 0, 0, 0, 0, 0, 0, 0], 16⟩
    ⟨fun _ => true, 0, 0⟩

theorem decodeHandle_nine : decodeHandle .lp64 (fun _ => true)
    ⟨.block [9, 0, 0, 0, 0, 0, 0, 0, 8, 0, 0, 0, 0, 0, 0, 0], 16⟩ = .ok 9 := by
  decide +kernel

theorem releaseNine_apart : ¬ releaseNine.Concerns .lp64 7 := by
  rw [releaseNine, KWSCall.Concerns, decodeHandle_nine]
  exact fun h => absurd (Outcome.ok.inj h) (by decide)

theorem releaseNine_served (cast : Cast) (p : KWSInference) :
    ∃ p', KwsPipeline.serve .lp64 cast (fun _ => 0) p [releaseNine] =
      .ok p' := by
  obtain ⟨answer, p', hcall⟩ : ∃ answer p',
      p.call .lp64 cast (fun _ => 0) releaseNine = .ok (answer, p') := by
    simp only [releaseNine, KWSInference.call, KWSInference.release,
      decodeHandle_nine]
    split
    · exact ⟨_, _, rfl⟩
    · exact ⟨_, _, rfl⟩
  refine ⟨p', ?_⟩
  simp only [KwsPipeline.serve, session, hcall, Outcome.ok_bind]

/-- Everything is there for each window, of which the MFCC processor makes
silence. -/
def sampleWindows : Nat → KwsWindowEnv := fun _ => {
  mfcc := fun _ => (Retcode.success,
    ⟨some (List.replicate defaultSlideStepSize 0), defaultSlideStepSize, by
      rintro _ ⟨⟩
      exact List.length_replicate⟩)
  encodeHeap := fun _ => true
  others := [releaseNine]
  transmission := .answered
  process := ⟨fun _ => true, fun _ => true, true, true, 0, fun _ => 0⟩
  decodeHeap := fun _ => true }

theorem sampleWindows_serve (cast : Cast) (k : Nat) (window : List Int16) :
    (sampleWindows k).Serves .lp64 cast (fun _ => 0) window where
  mfcc := rfl
  audio := ⟨_, rfl, List.length_replicate⟩
  encodeHeap := fun _ => rfl
  others := releaseNine_served cast
  transmission := rfl
  process := ⟨fun _ => rfl, fun _ => rfl, rfl, rfl, rfl⟩
  decodeHeap := fun _ => rfl

theorem sample_answers (config : PluginConfig)
    (h : KWSInference.buildConfig sampleCreate.prepare = some config) :
    config.Answers := by
  obtain rfl : ⟨4000, 4, 1, 2⟩ = config := Option.some.inj h
  exact ⟨by decide, by decide, rfl, by decide, by decide⟩

theorem sample_range (handle : Int)
    (h : sampleCreate.prepare.init = some handle) :
    IntptrRange .lp64 handle := by
  obtain rfl : 7 = handle := Option.some.inj h
  exact ⟨by decide, by decide⟩

/-- In every state of a run the windows that were taken made the stream. -/
theorem reach_spots (a : Abi) (cast : Cast)
    (atof : List UInt8 → Float32) (envs : Nat → KwsWindowEnv)
    {earlier : List KWSCall} {answers : List KWSAnswer}
    {before created s : KwsPipeline} {env : KwsCreateEnv}
    (hplugin : session (KWSInference.call a cast atof) .new earlier =
      .ok (answers, before.plugin))
    (hrange : ∀ handle, env.prepare.init = some handle →
      IntptrRange a handle)
    (hcreate : before.create a cast atof env =
      .ok (KwsRetcode.success, created))
    (hapart : ∀ k, ∀ c ∈ (envs k).others,
      ¬ c.Concerns a created.sdk.kwsHandle)
    (hs : (spottingMachine a cast atof envs created).Reach
      (fun s i => i.Apart a created.sdk.kwsHandle s) s) :
    ∃ config means stds,
      KWSInference.buildConfig env.prepare = some config ∧
      kwsTables atof env.prepare.norm = some (means, stds) ∧
      IntptrRange a created.sdk.kwsHandle ∧
      Spots a cast created.sdk.kwsHandle created.plugin.invoked
        created.sdk.events config means stds envs s := by
  have hnew : Listens a .new .new := ⟨rfl, rfl, fun _ => .none⟩
  have hfollows := session_follows
    (fun s l c h => call_follows cast atof h c) earlier hnew
  rw [hplugin] at hfollows
  obtain ⟨l, -, hlistens⟩ := hfollows.of_ok
  obtain ⟨config, means, stds, hconfig, htables, hinRange, hspots⟩ :=
    create_spots hlistens hrange hcreate envs
  refine ⟨config, means, stds, hconfig, htables, hinRange, hs.invariant ?_ ?_⟩
  · rintro _ rfl
    exact hspots
  · intro s i s' h hi hstep
    exact h.step hinRange hapart hi hstep

/-- From a `Create` that succeeds to `Destroy`, whatever fails on the way: the
windows that were taken are the first of the samples that were accepted; the
model of the handle was given the windows of features, and the callback was
called, as these windows in their order can make a stream do. -/
theorem spotting_follows_stream (a : Abi) (cast : Cast)
    (atof : List UInt8 → Float32) (envs : Nat → KwsWindowEnv)
    {earlier : List KWSCall} {answers : List KWSAnswer}
    {before created s : KwsPipeline} {env : KwsCreateEnv}
    (hplugin : session (KWSInference.call a cast atof) .new earlier =
      .ok (answers, before.plugin))
    (hrange : ∀ handle, env.prepare.init = some handle →
      IntptrRange a handle)
    (hcreate : before.create a cast atof env =
      .ok (KwsRetcode.success, created))
    (hapart : ∀ k, ∀ c ∈ (envs k).others,
      ¬ c.Concerns a created.sdk.kwsHandle)
    (hs : (spottingMachine a cast atof envs created).Reach
      (fun s i => i.Apart a created.sdk.kwsHandle s) s) :
    ∃ config means stds st more,
      KWSInference.buildConfig env.prepare = some config ∧
      kwsTables atof env.prepare.norm = some (means, stds) ∧
      s.taken ≤ KwsRun.windowsOf s.samples.length ∧
      KwsStream.After cast means stds config.outputSize envs
        (Window.nth kwsStepSize kwsWindowSize s.samples) s.taken st ∧
      s.plugin.invoked = created.plugin.invoked ++ more ∧
      givenTo created.sdk.kwsHandle more = st.given ∧
      s.sdk.events = created.sdk.events ++ st.events := by
  obtain ⟨config, means, stds, hconfig, htables, -, hspots⟩ :=
    reach_spots a cast atof envs hplugin hrange hcreate hapart hs
  obtain ⟨st, hafter, htracks⟩ := hspots.stream
  obtain ⟨l', hlistens', hattends⟩ := htracks.plugin
  obtain ⟨more, hinvoked, hgiven⟩ := hattends.invoked
  exact ⟨config, means, stds, st, more, hconfig, htables, hspots.le, hafter,
    hlistens'.invoked.trans hinvoked, hgiven, htracks.events⟩

theorem sampleWindows_apart {handle : Int} (hhandle : handle = 7) (k : Nat) :
    ∀ c ∈ (sampleWindows k).others, ¬ c.Concerns .lp64 handle := by
  intro c hc
  rw [List.mem_singleton.mp hc, hhandle]
  exact releaseNine_apart

/-- The callback is set, another client releases its handle, and then two
windows of silence come in one input. -/
theorem sampleWindows_reach (cast : Cast) {created : KwsPipeline}
    (hcreate : samplePipeline.create .lp64 cast (fun _ => 0) sampleCreate =
      .ok (KwsRetcode.success, created))
    (hhandle : created.sdk.kwsHandle = 7) (hsamples : created.samples = [])
    (htaken : created.taken = 0) :
    ∃ s, (spottingMachine .lp64 cast (fun _ => 0) sampleWindows created).Reach
        (fun s i => i.Apart .lp64 created.sdk.kwsHandle s) s ∧
      s.samples.length = 6560 ∧
      s.taken = KwsRun.windowsOf s.samples.length := by
  have hplugin : session (KWSInference.call .lp64 cast (fun _ => 0)) .new [] =
      .ok ([], samplePipeline.plugin) := rfl
  have h₀ : (spottingMachine .lp64 cast (fun _ => 0) sampleWindows
      created).Reach (fun s i => i.Apart .lp64 created.sdk.kwsHandle s)
        created := .start rfl
  have h₁ := h₀.step
    (show KwsStep.Apart .lp64 created.sdk.kwsHandle created .setCallback from
      trivial) rfl
  obtain ⟨p', hserve⟩ := releaseNine_served cast created.plugin
  have hother : KwsPipeline.step .lp64 cast (fun _ => 0) sampleWindows
      { created with sdk := created.sdk.setCallback } (.others [releaseNine]) =
      some { created with
        sdk := created.sdk.setCallback, plugin := p' } := by
    simp only [KwsPipeline.step, hserve]
  have h₂ := h₁.step (show KwsStep.Apart .lp64 created.sdk.kwsHandle
    { created with sdk := created.sdk.setCallback } (.others [releaseNine]) from
      sampleWindows_apart hhandle 0) hother
  obtain ⟨config, means, stds, hconfig, -, hrange, hspots⟩ :=
    reach_spots .lp64 cast (fun _ => 0) sampleWindows hplugin sample_range
      hcreate (sampleWindows_apart hhandle) h₂
  obtain ⟨input, hlen⟩ : ∃ input : List Int16, input.length = 6560 :=
    ⟨List.replicate 6560 0, List.length_replicate⟩
  have hnone : created.taken = KwsRun.windowsOf created.samples.length := by
    rw [htaken, hsamples]
    decide
  have hpos : 0 < input.length := by
    rw [hlen]
    decide
  obtain ⟨st, s, st', hrun, hall, htakenAll, -⟩ := hspots.syncExecute_served
    hrange (sample_answers config hconfig) (sampleWindows_apart hhandle)
    (by rw [hhandle]; decide) rfl hnone hpos
    fun k _ _ => sampleWindows_serve cast k _
  have hlast : KwsPipeline.step .lp64 cast (fun _ => 0) sampleWindows
      { created with sdk := created.sdk.setCallback, plugin := p' }
      (.syncExecute input) = some s := by
    simp only [KwsPipeline.step, hrun]
  have h₃ := h₂.step (show KwsStep.Apart .lp64 created.sdk.kwsHandle
    { created with sdk := created.sdk.setCallback, plugin := p' }
      (.syncExecute input) from trivial) hlast
  refine ⟨s, h₃, ?_, htakenAll⟩
  show s.samples.length = 6560
  rw [hall, List.length_append]
  show created.samples.length + _ = _
  rw [hsamples, hlen]
  rfl

theorem spotting_follows_stream_sample :
    ∃ created s,
      samplePipeline.create .lp64 sampleCast (fun _ => 0) sampleCreate =
        .ok (KwsRetcode.success, created) ∧
      (spottingMachine .lp64 sampleCast (fun _ => 0) sampleWindows
        created).Reach (fun s i => i.Apart .lp64 created.sdk.kwsHandle s) s ∧
      s.taken = 2 ∧
      ∃ (config : PluginConfig) (means stds : List Float32) (st : KwsStream)
        (more : List (Int × List UInt8)),
        KwsStream.After sampleCast means stds config.outputSize sampleWindows
          (Window.nth kwsStepSize kwsWindowSize s.samples) 2 st ∧
        s.plugin.invoked = created.plugin.invoked ++ more ∧
        givenTo created.sdk.kwsHandle more = st.given ∧
        s.sdk.events = created.sdk.events ++ st.events := by
  obtain ⟨created, hcreate, hhandle, hsamples, htaken⟩ :=
    sample_created sampleCast
  obtain ⟨s, hs, hlen, hall⟩ :=
    sampleWindows_reach sampleCast hcreate hhandle hsamples htaken
  have hplugin : session (KWSInference.call .lp64 sampleCast (fun _ => 0))
      .new [] = .ok ([], samplePipeline.plugin) := rfl
  have htwo : s.taken = 2 := by
    rw [hall, hlen]
    decide
  obtain ⟨config, means, stds, st, more, -, -, -, hafter, hinvoked, hgiven,
    hevents⟩ := spotting_follows_stream .lp64 sampleCast (fun _ => 0)
      sampleWindows hplugin sample_range hcreate (sampleWindows_apart hhandle)
      hs
  rw [htwo] at hafter
  exact ⟨created, s, hcreate, hs, htwo, config, means, stds, st, more, hafter,
    hinvoked, hgiven, hevents⟩

end AiEngine.Ref
