import AiEngine.Lib.Session
import AiEngine.Proofs.KwsFeatures

/-!
# The model hears the last window of its handle

`KwsListener` is the keyword spotting plugin without processors, buffers and
addresses: for each handle it has the features heard since `Prepare`, and the
model of the handle is given their end. The plugin answers every sequence of
calls as the listener does and runs its models on the same inputs. In
particular a request refused for its length leaves the window where it was, one
whose inference fails does not, and no request for one handle is heard by
another.
-/

namespace AiEngine.Ref

open AiEngine.Lib

/-! ## The listener

What the plugin is for: a listener keeps for each handle the features it has
heard, and gives the model the last window of them. It knows of no buffers. -/

/-- A prepared handle. -/
structure KwsVoice where
  config : PluginConfig
  means : List Float32
  stds : List Float32
  heard : List UInt8

structure KwsListener where
  adapter : Bool
  voices : Table Int KwsVoice
  invoked : List (Int × List UInt8)

/-- The mean and the deviation in the files of the norm processor. -/
def kwsTables (atof : List UInt8 → Float32) (memory : NormMemory) :
    Option (List Float32 × List Float32) :=
  match NormProcessor.loadMeanAndStd atof
      (memory.files defaultNormMeanFilePath)
      (memory.files defaultNormStdFilePath)
      (List.replicate defaultNormNumChannels 0)
      (List.replicate defaultNormNumChannels 0) defaultNormNumChannels with
  | some (retCode, means, stds) =>
      if retCode = Retcode.success then some (means, stds) else none
  | none => none

/-- There is memory for all of a norm processor. -/
def NormMemory.allocates (memory : NormMemory) : Bool :=
  memory.converter && memory.converterBuffer && memory.mean && memory.std &&
    memory.workBuffer

/-- There is memory for all of a workplace. -/
def KWSPrepareEnv.allocates (env : KWSPrepareEnv) : Bool :=
  env.slideBuffer && env.convertBuffer && env.norm.allocates

/-- A handle when it has just been prepared: nothing but silence was heard. -/
def KWSPrepareEnv.voice (atof : List UInt8 → Float32) (env : KWSPrepareEnv) :
    Option KwsVoice := do
  let config ← KWSInference.buildConfig env
  if env.allocates then
    let (means, stds) ← kwsTables atof env.norm
    some ⟨config, means, stds, List.replicate
      ((defaultSlideWindowSize - defaultSlideStepSize) *
        DataType.int32.size) 0⟩
  else none

/-- What the model of a handle is given. -/
def KwsVoice.window (v : KwsVoice) : List UInt8 :=
  v.heard.rtake (defaultSlideWindowSize * DataType.int32.size)

namespace KwsListener

def new : KwsListener := ⟨false, ∅, []⟩

variable (a : Abi) (cast : Cast) (atof : List UInt8 → Float32)

def prepare (l : KwsListener) (env : KWSPrepareEnv) (outputInfo : DataInfo) :
    Outcome Thrown (KWSAnswer × KwsListener) :=
  if ¬ l.adapter ∧ ¬ env.newAdapter then
    .ok (.prepared Retcode.failure outputInfo, l)
  else
    let l := { l with adapter := true }
    match env.init with
    | none => .ok (.prepared Retcode.failure outputInfo, l)
    | some handle =>
        if handle ∈ l.voices then
          .ok (.prepared Retcode.success outputInfo, l)
        else
          match env.voice atof with
          | none => .ok (.prepared Retcode.failure outputInfo, l)
          | some v => do
              let (retCode, outputInfo) ←
                encoded (encodeHandle a env.heap outputInfo handle)
              .ok (.prepared retCode outputInfo,
                { l with voices := l.voices.insertNew handle v })

/-- What the model output of a handle is encoded as. -/
def result (env : KWSProcessEnv) (handle : Int) (v : KwsVoice) :
    Outcome (Int × DataInfo) DataInfo :=
  encodeResult a env.encodeHeap ⟨.null, 0⟩ handle
    ⟨some ((List.range v.config.outputSize).map env.output),
      v.config.outputSize, by rintro _ ⟨⟩; simp⟩

/-- The model of a handle runs on its window. -/
def infer (l : KwsListener) (env : KWSProcessEnv) (handle : Int)
    (v : KwsVoice) : Outcome Thrown (KWSAnswer × KwsListener) :=
  if ¬ l.adapter ∨ v.config.inputAddr = 0 ∨ v.config.outputAddr = 0 ∨
      v.config.inputSize ≠ defaultSlideWindowSize then
    .ok (.processed Retcode.failure none, l)
  else
    let l := { l with invoked := l.invoked ++ [(handle, v.window)] }
    if env.invoke ≠ Retcode.success then
      .ok (.processed Retcode.failure none, l)
    else do
      let (retCode, outputInfo) ← encoded (result a env handle v)
      if retCode ≠ Retcode.success then
        .ok (.processed Retcode.failure none, l)
      else .ok (.processed Retcode.success (some outputInfo), l)

def syncProcess (l : KwsListener) (request : Option DataInfo)
    (env : KWSProcessEnv) : Outcome Thrown (KWSAnswer × KwsListener) :=
  match request with
  | none => .ok (.processed Retcode.nullParam none, l)
  | some inputInfo =>
      if inputInfo.data = .null ∨ inputInfo.length ≤ 0 then
        .ok (.processed Retcode.nullParam none, l)
      else
        match decodeAudio a env.decodeHeap inputInfo with
        | .fault => .fault
        | .fail _ => .ok (.processed Retcode.failure none, l)
        | .ok (handle, audioInput) =>
            match l.voices.lookup handle with
            | none => .ok (.processed Retcode.nullParam none, l)
            | some v =>
                let audio := audioInput.data.getD []
                if audio.length ≠ defaultSlideStepSize then
                  .ok (.processed Retcode.failure none, l)
                else
                  let v := { v with
                    heard := v.heard ++ kwsFeatures cast v.means v.stds audio }
                  { l with voices := l.voices.insert handle v }.infer a env
                    handle v

def release (l : KwsListener) (isFullUnload : Bool) (inputInfo : DataInfo)
    (env : KWSReleaseEnv) : Outcome Thrown (KWSAnswer × KwsListener) :=
  if ¬ l.adapter then .ok (.released Retcode.failure, l)
  else
    match decodeHandle a env.heap inputInfo with
    | .fault => .fault
    | .fail _ => .ok (.released Retcode.failure, l)
    | .ok handle =>
        if env.releaseHandle ≠ Retcode.success then
          .ok (.released Retcode.failure, l)
        else
          .ok (.released
            (if isFullUnload ∧ env.deinit ≠ Retcode.success then
              Retcode.failure else Retcode.success),
            { l with voices := l.voices.erase handle })

def call (l : KwsListener) :
    KWSCall → Outcome Thrown (KWSAnswer × KwsListener)
  | .prepare env outputInfo => l.prepare a atof env outputInfo
  | .syncProcess request env => l.syncProcess a cast request env
  | .release isFullUnload inputInfo env =>
      l.release a isFullUnload inputInfo env

end KwsListener

section

variable {a : Abi} (atof : List UInt8 → Float32)

/-- What nothing but silence leaves in the window. -/
def silentFeatures : List UInt8 :=
  List.replicate ((defaultSlideWindowSize - defaultSlideStepSize) *
    DataType.int32.size) 0

theorem slide_init (newBuffer : Bool) :
    ∃ p, SlideWindowProcessor.new.init a (some slideWindowConfig) newBuffer =
        (if newBuffer then Retcode.success else Retcode.failure, p) ∧
      (newBuffer = true → p.Seen slideWindowConfig silentFeatures) := by
  have hcode : (SlideWindowProcessor.new.init a (some slideWindowConfig)
      newBuffer).1 =
      if newBuffer then Retcode.success else Retcode.failure := by
    cases newBuffer <;> rfl
  refine ⟨_, Prod.ext hcode rfl, ?_⟩
  rintro rfl
  exact SlideWindowProcessor.init_seen (Prod.ext hcode rfl) (by decide)

theorem convert_init (config : TypeConverterConfig)
    (htype : config.dataType ≠ .unknown)
    (hsize : config.size * config.dataType.size ≤ maxSampleSize)
    (newBuffer : Bool) :
    ∃ p, TypeConverter.new.init a (some config) newBuffer =
        (if newBuffer then Retcode.success else Retcode.failure, p) ∧
      (newBuffer = true → (∃ bytes, p.Holds a bytes) ∧
        p.workBuffer.dataType = config.dataType ∧
        p.workBuffer.size = config.size) := by
  have hexact : a.sizeT (config.size * config.dataType.size) =
      config.size * config.dataType.size :=
    Abi.sizeT_small (Nat.lt_of_le_of_lt hsize (by decide))
  have hcode : (TypeConverter.new.init a (some config) newBuffer).1 =
      if newBuffer then Retcode.success else Retcode.failure := by
    unfold TypeConverter.init
    rw [if_neg (by decide)]
    dsimp only
    rw [if_neg htype, if_neg (by rw [hexact]; exact Nat.not_lt.mpr hsize)]
    cases newBuffer <;> rfl
  refine ⟨_, Prod.ext hcode rfl, ?_⟩
  rintro rfl
  rcases TypeConverter.init_cases (a := a) (p := TypeConverter.new)
      (some config) true with
    ⟨p', bytes, hinit, -, hholds, hsizes⟩ | hinit | ⟨p', hinit, -⟩
  · obtain ⟨hsameType, hsameSize⟩ := hsizes _ rfl
    rw [hinit]
    exact ⟨⟨bytes, hholds⟩, hsameType, hsameSize⟩
  · rw [hinit] at hcode
    cases hcode
  · rw [hinit] at hcode
    cases hcode

theorem norm_init (memory : NormMemory) :
    ∃ p, NormProcessor.new.init a atof (some normConfig) memory =
        some (if memory.allocates ∧ (kwsTables atof memory).isSome then
          Retcode.success else Retcode.failure, p) ∧
      (memory.allocates = true → ∀ means stds,
        kwsTables atof memory = some (means, stds) →
        p.LoadedWith a means stds ∧ p.config = normConfig) := by
  obtain ⟨converter, hconvert, hholds⟩ := convert_init (a := a)
    ⟨.float, normConfig.inputSize⟩ nofun (by decide) memory.converterBuffer
  rcases memory with ⟨newConverter, newBuffer, newMean, newStd, newWork, files⟩
  unfold NormProcessor.init
  rw [if_neg (by decide)]
  dsimp only
  rw [if_neg (by decide), if_neg (by decide), hconvert]
  cases newConverter with
  | false => exact ⟨_, rfl, nofun⟩
  | true =>
  cases newBuffer with
  | false => exact ⟨_, rfl, nofun⟩
  | true =>
  dsimp only
  rw [if_neg (by decide), if_pos rfl, if_neg (not_not.mpr rfl),
    if_neg (by decide)]
  cases newMean with
  | false => exact ⟨_, rfl, nofun⟩
  | true =>
  cases newStd with
  | false => exact ⟨_, rfl, nofun⟩
  | true =>
  cases newWork with
  | false => exact ⟨_, rfl, nofun⟩
  | true =>
  obtain ⟨retCode, means, stds, hload, hret, hmeans, hstds⟩ :=
    NormProcessor.loadMeanAndStd_inside atof
      (List.length_replicate (n := defaultNormNumChannels) (a := 0))
      (List.length_replicate (n := defaultNormNumChannels) (a := 0))
      (by decide) (files defaultNormMeanFilePath)
      (files defaultNormStdFilePath)
  have htables : kwsTables atof ⟨true, true, true, true, true, files⟩ =
      if retCode = Retcode.success then some (means, stds) else none := by
    simp only [kwsTables, hload]
  have hnew (n : Nat) : NormProcessor.newFloats true n =
      some (List.replicate n 0) := rfl
  simp only [hnew]
  rw [show normConfig.numChannels = defaultNormNumChannels from rfl,
    show normConfig.meanFilePath = defaultNormMeanFilePath from rfl,
    show normConfig.stdFilePath = defaultNormStdFilePath from rfl, hload,
    Option.bind_eq_bind, Option.bind_some]
  dsimp only
  rcases hret with rfl | rfl
  · rw [if_pos rfl] at htables
    rw [htables, if_neg (not_not.mpr rfl)]
    refine ⟨_, rfl, fun _ means' stds' heq => ?_⟩
    obtain ⟨rfl, rfl⟩ := Prod.mk.inj (Option.some.inj heq)
    exact ⟨⟨⟨show 0 < defaultNormNumChannels by decide, ⟨_, rfl, hmeans⟩,
      ⟨_, rfl, hstds⟩, ⟨_, rfl, List.length_replicate⟩,
      ⟨_, _, rfl, (hholds rfl).1.choose_spec, (hholds rfl).2⟩⟩, rfl, rfl,
      rfl⟩, rfl⟩
  · rw [if_neg (by decide)] at htables
    rw [htables, if_pos (by decide)]
    exact ⟨_, rfl, nofun⟩

/-- `InitWorkplace` succeeds where the memory and the files allow it, and then
has heard nothing but silence. -/
theorem initWorkplace_spec (config : PluginConfig) (env : KWSPrepareEnv) :
    (∃ means stds w, env.allocates = true ∧
        kwsTables atof env.norm = some (means, stds) ∧
        KWSInference.initWorkplace a atof config env = .ok w ∧
        w.config = config ∧ w.Hears a means stds silentFeatures) ∨
      ((env.allocates = true → kwsTables atof env.norm = none) ∧
        ∃ c, KWSInference.initWorkplace a atof config env = .fail c) := by
  obtain ⟨slide, hslide, hseen⟩ := slide_init (a := a) env.slideBuffer
  obtain ⟨converter, hconvert, hholds⟩ := convert_init (a := a)
    convertConfig nofun (by decide) env.convertBuffer
  obtain ⟨norm, hnorm, hloaded⟩ := norm_init (a := a) atof env.norm
  simp only [KWSInference.initWorkplace, hslide, hconvert, hnorm]
  have hfailed : Retcode.failure ≠ Retcode.success := by decide
  have hall : env.allocates =
      (env.slideBuffer && env.convertBuffer && env.norm.allocates) := rfl
  cases hs : env.slideBuffer with
  | false =>
      refine .inr ⟨fun h => ?_, Retcode.failure, if_pos hfailed⟩
      rw [hall, hs] at h
      cases h
  | true =>
  cases hc : env.convertBuffer with
  | false =>
      refine .inr ⟨fun h => ?_, Retcode.failure, ?_⟩
      · rw [hall, hs, hc] at h
        cases h
      · rw [if_pos rfl, if_neg (not_not.mpr rfl)]
        exact if_pos hfailed
  | true =>
  have hsame : env.allocates = env.norm.allocates := by
    rw [hall, hs, hc]
    rfl
  rw [if_pos rfl, if_neg (not_not.mpr rfl), if_neg (not_not.mpr rfl)]
  by_cases hready : env.norm.allocates = true ∧
      (kwsTables atof env.norm).isSome = true
  · obtain ⟨⟨means, stds⟩, htables⟩ := Option.isSome_iff_exists.mp hready.2
    obtain ⟨hwith, hconfig⟩ := hloaded hready.1 means stds htables
    obtain ⟨hbytes, htype, hsize⟩ := hholds hc
    rw [if_pos hready, if_neg (not_not.mpr rfl)]
    exact .inl ⟨means, stds, _, hsame.trans hready.1, htables, rfl, rfl,
      hwith, hconfig, hbytes, htype, hsize, hseen hs⟩
  · rw [if_neg hready, if_pos hfailed]
    refine .inr ⟨fun h => ?_, Retcode.failure, rfl⟩
    by_contra hsome
    exact hready ⟨hsame.symm.trans h, Option.isSome_iff_ne_none.mpr hsome⟩

end

section

variable {a : Abi} {w : KWSWorker} {means stds : List Float32}
  {heard : List UInt8}

/-- The bytes behind an output are the ones a copy of its size reads. -/
theorem WindowOf.load {output : FeatureData Nat} (h : WindowOf heard w output)
    (hhears : w.Hears a means stds heard) :
    ∃ data v, output.data = some data ∧
      load w.slideProcessor.workBuffer data
        (defaultSlideWindowSize * DataType.int32.size) = some v ∧
      v.toList = heard.rtake
        (defaultSlideWindowSize * DataType.int32.size) := by
  have hbytes := h.bytes
  have htype : w.slideProcessor.typeSize = DataType.int32.size :=
    hhears.slide.sized.typeSize
  unfold SlideWindowProcessor.bytesOf at hbytes
  split at hbytes
  · cases hbytes
  · next data hdata =>
      rw [h.size, htype] at hbytes
      obtain ⟨v, hload, hv⟩ := Option.map_eq_some_iff.mp hbytes
      exact ⟨data, v, hdata, hload, hv⟩

theorem memcpyS_whole {src : List UInt8} {pos n : Nat} {bytes : Vector UInt8 n}
    (hload : load src pos n = some bytes) (hok : memcpyOk n n = true) :
    memcpyS (List.replicate n 0) 0 n src pos n = .ok bytes.toList := by
  obtain ⟨hfit, hpart⟩ := load_spec hload
  rw [memcpyS_eq _ _ hok hfit (by
    rw [List.length_replicate, Nat.zero_add]), ← hpart]
  simp

/-- `MakeInference` gives the model the window, where it gives it anything. -/
theorem makeInference_eq {v : KwsVoice} {output : FeatureData Nat}
    (h : WindowOf v.heard w output) (hhears : w.Hears a means stds v.heard)
    (adapter : Option EngineAdapter) (handle : Int) (env : KWSProcessEnv) :
    KWSInference.makeInference a adapter handle w.slideProcessor.workBuffer
        output v.config env ⟨.null, 0⟩ =
      if adapter.isNone ∨ v.config.inputAddr = 0 ∨ v.config.outputAddr = 0 then
        .ok (Retcode.nullParam, ⟨.null, 0⟩, none)
      else if v.config.inputSize ≠ defaultSlideWindowSize then
        .ok (Retcode.failure, ⟨.null, 0⟩, none)
      else if env.invoke ≠ Retcode.success then
        .ok (Retcode.failure, ⟨.null, 0⟩, some v.window)
      else encoded (KwsListener.result a env handle v) >>= fun r =>
        .ok (r.1, r.2, some v.window) := by
  obtain ⟨data, bytes, hdata, hload, hbytes⟩ := h.load hhears
  simp only [KWSInference.makeInference, hdata, h.size]
  split
  · rfl
  by_cases hsize : v.config.inputSize = defaultSlideWindowSize
  swap
  · rw [if_pos (fun heq => hsize heq.symm), if_pos hsize]
  rw [if_neg (not_not.mpr hsize.symm), if_neg (not_not.mpr hsize), hsize]
  have hexact : a.sizeT (defaultSlideWindowSize * DataType.int32.size) =
      defaultSlideWindowSize * DataType.int32.size :=
    Abi.sizeT_small (by decide)
  have hcopy := memcpyS_whole hload (by decide)
  rw [hbytes] at hcopy
  rw [hexact, hcopy]
  rfl

end

/-! ## Side by side

`Voiced` relates a workplace to a voice, and `Listens` the plugin to the
listener. Each function of the plugin ends as the listener's does, refusals
and faults included. -/

/-- A workplace and what the listener has for it. -/
inductive Voiced (a : Abi) : Option KWSWorker → Option KwsVoice → Prop where
  | none : Voiced a none none
  | some {w : KWSWorker} {v : KwsVoice} (hconfig : w.config = v.config)
      (hhears : w.Hears a v.means v.stds v.heard) : Voiced a (some w) (some v)

/-- A plugin and the listener it follows. -/
structure Listens (a : Abi) (s : KWSInference) (l : KwsListener) : Prop where
  adapter : s.plugin.adapter.isSome = l.adapter
  invoked : s.invoked = l.invoked
  voices : ∀ handle, Voiced a (s.plugin.handles.lookup handle)
    (l.voices.lookup handle)

section

variable {a : Abi} {s : KWSInference} {l : KwsListener}

theorem Voiced.mem_iff {handles : Table Int KWSWorker}
    {voices : Table Int KwsVoice} {handle : Int}
    (h : Voiced a (handles.lookup handle) (voices.lookup handle)) :
    handle ∈ handles ↔ handle ∈ voices := by
  rw [← Finmap.lookup_isSome, ← Finmap.lookup_isSome]
  generalize handles.lookup handle = x at h ⊢
  generalize voices.lookup handle = y at h ⊢
  cases h <;> simp

/-- One handle gets a new workplace, the others are as they were. -/
theorem Listens.insert (h : Listens a s l) (handle : Int) {w : KWSWorker}
    {v : KwsVoice} (hconfig : w.config = v.config)
    (hhears : w.Hears a v.means v.stds v.heard)
    (adapter : Option EngineAdapter)
    (hadapter : adapter.isSome = l.adapter) :
    Listens a
      { s with plugin :=
        ⟨adapter, s.plugin.handles.insert handle w⟩ }
      { l with voices := l.voices.insert handle v } := by
  refine ⟨hadapter, h.invoked, fun x => ?_⟩
  rw [Table.lookup_insert_if, Table.lookup_insert_if]
  by_cases hx : x = handle
  · rw [if_pos hx, if_pos hx]
    exact .some hconfig hhears
  · rw [if_neg hx, if_neg hx]
    exact h.voices x

theorem Listens.insert_same (h : Listens a s l) {handle : Int} {w : KWSWorker}
    (hw : s.plugin.handles.lookup handle = some w) :
    Listens a
      { s with plugin :=
        { s.plugin with handles := s.plugin.handles.insert handle w } } l := by
  refine ⟨h.adapter, h.invoked, fun x => ?_⟩
  rw [Table.lookup_insert_if]
  by_cases hx : x = handle
  · rw [if_pos hx, hx, ← hw]
    exact h.voices handle
  · rw [if_neg hx]
    exact h.voices x

/-- A handle loses its workplace, the others are as they were. -/
theorem Listens.erase (h : Listens a s l) (handle : Int)
    (adapter : Option EngineAdapter) (hadapter : adapter.isSome = l.adapter) :
    Listens a
      { s with plugin := ⟨adapter, s.plugin.handles.erase handle⟩ }
      { l with voices := l.voices.erase handle } := by
  refine ⟨hadapter, h.invoked, fun x => ?_⟩
  by_cases hx : x = handle
  · subst hx
    rw [Finmap.lookup_erase, Finmap.lookup_erase]
    exact .none
  · rw [Finmap.lookup_erase_ne hx, Finmap.lookup_erase_ne hx]
    exact h.voices x

variable (cast : Cast) (atof : List UInt8 → Float32)

theorem getAdapter_cases (p : PluginHandles KWSWorker) (newAdapter : Bool) :
    (p.getAdapter newAdapter = none ∧ p.adapter.isSome = false ∧
        newAdapter = false) ∨
      ∃ adapter, p.getAdapter newAdapter = some adapter ∧
        (p.adapter.isSome = true ∨ newAdapter = true) := by
  unfold PluginHandles.getAdapter
  cases hadapter : p.adapter with
  | some adapter => exact .inr ⟨adapter, rfl, .inl rfl⟩
  | none =>
      cases newAdapter with
      | false => exact .inl ⟨rfl, rfl, rfl⟩
      | true => exact .inr ⟨_, rfl, .inr rfl⟩

theorem encoded_follows {rel : KWSInference → KwsListener → Prop}
    (x : Outcome (Int × DataInfo) DataInfo)
    {f : Int × DataInfo → Outcome Thrown (KWSAnswer × KWSInference)}
    {g : Int × DataInfo → Outcome Thrown (KWSAnswer × KwsListener)}
    (hfg : ∀ r, Follows .badAlloc rel (f r) (g r)) :
    Follows .badAlloc rel (encoded x >>= f) (encoded x >>= g) := by
  cases x with
  | ok outputInfo => exact hfg _
  | fail c => exact hfg _
  | fault => exact .fault

theorem voice_eq (env : KWSPrepareEnv) {config : PluginConfig}
    (hconfig : KWSInference.buildConfig env = some config) :
    env.voice atof = if env.allocates then
      (kwsTables atof env.norm).map fun tables =>
        ⟨config, tables.1, tables.2, silentFeatures⟩
      else none := by
  simp only [KWSPrepareEnv.voice, hconfig, Option.bind_eq_bind,
    Option.bind_some]
  split
  · cases kwsTables atof env.norm <;> rfl
  · rfl

theorem prepare_follows (h : Listens a s l) (env : KWSPrepareEnv)
    (outputInfo : DataInfo) :
    Follows .badAlloc (Listens a)
      (KWSInference.call a cast atof s (.prepare env outputInfo))
      (l.prepare a atof env outputInfo) := by
  have hadapter := h.adapter
  simp only [KWSInference.call, KWSInference.prepare, KwsListener.prepare]
  rcases getAdapter_cases s.plugin env.newAdapter with
    ⟨hget, hoff, hnew⟩ | ⟨adapter, hget, hon⟩
  · rw [hget, if_pos ⟨by rw [← hadapter, hoff]; decide, by rw [hnew]; decide⟩]
    exact .ok _ h
  have hcreated : ¬ (¬ l.adapter = true ∧ ¬ env.newAdapter = true) := by
    rw [← hadapter]
    rcases hon with hon | hon <;> simp [hon]
  rw [hget, if_neg hcreated]
  have hopened : Listens a
      { s with plugin :=
        { s.plugin with adapter := some (adapter.init env.init) } }
      { l with adapter := true } := ⟨rfl, h.invoked, h.voices⟩
  cases hinit : env.init with
  | none =>
      rw [hinit] at hopened
      exact .ok _ hopened
  | some handle =>
      rw [hinit] at hopened
      dsimp only
      have hmem := (h.voices handle).mem_iff
      by_cases hin : handle ∈ l.voices
      · rw [if_pos (hmem.mpr hin), if_pos hin]
        exact .ok _ hopened
      rw [if_neg (hmem.not.mpr hin), if_neg hin]
      cases hconfig : KWSInference.buildConfig env with
      | none =>
          have hvoice : env.voice atof = none := by
            simp [KWSPrepareEnv.voice, hconfig]
          rw [hvoice]
          exact .ok _ hopened
      | some config =>
          rw [voice_eq atof env hconfig]
          dsimp only
          rcases initWorkplace_spec (a := a) atof config env with
            ⟨means, stds, w, hall, htables, hrun, hsame, hhears⟩ |
              ⟨hnone, c, hrun⟩
          · rw [hrun, if_pos hall, htables]
            rw [bind_assoc]
            refine encoded_follows _ fun r => .ok _ ?_
            rw [Table.insertNew, if_neg (hmem.not.mpr hin), Table.insertNew,
              if_neg hin]
            exact hopened.insert handle hsame hhears _ rfl
          · have hvoice : (if env.allocates then
                (kwsTables atof env.norm).map fun tables =>
                  (⟨config, tables.1, tables.2, silentFeatures⟩ : KwsVoice)
                else none) = none := by
              split
              · next hall => rw [hnone hall, Option.map_none]
              · rfl
            rw [hrun, hvoice]
            exact .ok _ hopened

/-- From the processors on, a request makes the model run as in the
listener. -/
theorem infer_follows (h : Listens a s l) {w : KWSWorker} {v : KwsVoice}
    (hconfig : w.config = v.config) (hhears : w.Hears a v.means v.stds v.heard)
    {output : FeatureData Nat} (hwindow : WindowOf v.heard w output)
    (handle : Int) (env : KWSProcessEnv) :
    Follows .badAlloc (Listens a)
      (KWSInference.makeInference a s.plugin.adapter handle
          w.slideProcessor.workBuffer output w.config env ⟨.null, 0⟩ >>=
        fun r =>
          let s := { s with
            invoked := s.invoked ++ r.2.2.toList.map (handle, ·) }
          if r.1 ≠ Retcode.success then
            .ok (.processed Retcode.failure none, s)
          else .ok (.processed Retcode.success (some r.2.1), s))
      (l.infer a env handle v) := by
  have hrefused : Follows Thrown.badAlloc (Listens a)
      (.ok (KWSAnswer.processed Retcode.failure none,
        { s with invoked := s.invoked ++ [] }))
      (.ok (.processed Retcode.failure none, l)) := by
    rw [List.append_nil]
    exact .ok _ h
  have hran : Listens a { s with invoked := s.invoked ++ [(handle, v.window)] }
      { l with invoked := l.invoked ++ [(handle, v.window)] } :=
    ⟨h.adapter, congrArg (· ++ [(handle, v.window)]) h.invoked, h.voices⟩
  have hnullParam : Retcode.nullParam ≠ Retcode.success := by decide
  have hfailed : Retcode.failure ≠ Retcode.success := by decide
  rw [hconfig, makeInference_eq hwindow hhears, KwsListener.infer]
  have hnone : s.plugin.adapter.isNone = true ↔ ¬ l.adapter = true := by
    rw [← h.adapter]
    cases s.plugin.adapter <;> simp
  by_cases haddr : ¬ l.adapter = true ∨ v.config.inputAddr = 0 ∨
      v.config.outputAddr = 0
  · have hclosed : ¬ l.adapter = true ∨ v.config.inputAddr = 0 ∨
        v.config.outputAddr = 0 ∨
        v.config.inputSize ≠ defaultSlideWindowSize := by tauto
    rw [if_pos (hnone.or Iff.rfl |>.mpr haddr), if_pos hclosed,
      Outcome.ok_bind]
    dsimp only
    rw [if_pos hnullParam]
    exact hrefused
  rw [if_neg (hnone.or Iff.rfl |>.not.mpr haddr)]
  by_cases hsize : v.config.inputSize = defaultSlideWindowSize
  swap
  · have hclosed : ¬ l.adapter = true ∨ v.config.inputAddr = 0 ∨
        v.config.outputAddr = 0 ∨
        v.config.inputSize ≠ defaultSlideWindowSize := by tauto
    rw [if_pos hsize, if_pos hclosed, Outcome.ok_bind]
    dsimp only
    rw [if_pos hfailed]
    exact hrefused
  have hopen : ¬ (¬ l.adapter = true ∨ v.config.inputAddr = 0 ∨
      v.config.outputAddr = 0 ∨
      v.config.inputSize ≠ defaultSlideWindowSize) := by tauto
  rw [if_neg (not_not.mpr hsize), if_neg hopen]
  dsimp only
  by_cases hinvoke : env.invoke = Retcode.success
  swap
  · rw [if_pos hinvoke, if_pos hinvoke, Outcome.ok_bind]
    dsimp only
    rw [if_pos hfailed]
    exact .ok _ hran
  rw [if_neg (not_not.mpr hinvoke), if_neg (not_not.mpr hinvoke), bind_assoc]
  refine encoded_follows _ fun r => ?_
  rw [Outcome.ok_bind]
  dsimp only
  split
  · exact .ok _ hran
  · exact .ok _ hran

theorem syncProcess_follows (h : Listens a s l) (request : Option DataInfo)
    (env : KWSProcessEnv) :
    Follows .badAlloc (Listens a)
      (KWSInference.call a cast atof s (.syncProcess request env))
      (l.syncProcess a cast request env) := by
  cases request with
  | none => exact .ok _ h
  | some inputInfo =>
  simp only [KWSInference.call, KWSInference.syncProcess,
    KwsListener.syncProcess]
  split
  · exact .ok _ h
  cases hdecode : decodeAudio a env.decodeHeap inputInfo with
  | fault => exact .fault
  | fail c => exact .ok _ h
  | ok input =>
  obtain ⟨handle, audioInput⟩ := input
  dsimp only
  have hvoiced := h.voices handle
  generalize hw : s.plugin.handles.lookup handle = found at hvoiced
  generalize hv : l.voices.lookup handle = voice at hvoiced
  cases hvoiced with
  | none => exact .ok _ h
  | @some w v hconfig hhears =>
  dsimp only
  by_cases hlen : (audioInput.data.getD []).length = defaultSlideStepSize
  swap
  · have hrefused (xs) (hxs : audioInput.data = some xs) :
        xs.length ≠ defaultSlideStepSize := by
      rw [hxs] at hlen
      exact hlen
    rw [getNormedFeatures_refused cast hhears hrefused, if_pos hlen]
    exact .ok _ (h.insert_same hw)
  rw [if_neg (not_not.mpr hlen)]
  obtain ⟨audio, hdata⟩ : ∃ audio, audioInput.data = some audio := by
    cases hdata : audioInput.data with
    | none =>
        rw [hdata] at hlen
        cases hlen
    | some audio => exact ⟨audio, rfl⟩
  rw [hdata, Option.getD_some] at hlen
  rw [hdata, Option.getD_some]
  rcases getNormedFeatures_ok cast hhears hdata hlen env with
    ⟨-, hthrown⟩ | ⟨output, w', hrun, hsame, hhears', hwindow⟩
  · rw [hthrown]
    exact .inl rfl
  · have hconfig' : w'.config = v.config :=
      (congrArg KWSWorkplace.config hsame).trans hconfig
    rw [hrun]
    have hheard := h.insert handle (v := { v with
      heard := v.heard ++ kwsFeatures cast v.means v.stds audio })
      hconfig' hhears' s.plugin.adapter h.adapter
    have hinfer := infer_follows hheard (v := { v with
      heard := v.heard ++ kwsFeatures cast v.means v.stds audio })
      hconfig' hhears' hwindow handle env
    simp only [Outcome.ok_bind, not_not.mpr, if_false, ne_eq, bind_assoc]
    convert hinfer using 3 with r
    split
    · rfl
    · rfl

theorem release_follows (h : Listens a s l) (isFullUnload : Bool)
    (inputInfo : DataInfo) (env : KWSReleaseEnv) :
    Follows .badAlloc (Listens a)
      (KWSInference.call a cast atof s (.release isFullUnload inputInfo env))
      (l.release a isFullUnload inputInfo env) := by
  simp only [KWSInference.call, KWSInference.release, KwsListener.release]
  have hon := h.adapter
  cases hadapter : s.plugin.adapter with
  | none =>
      rw [hadapter] at hon
      have hclosed : ¬ l.adapter = true := by
        rw [← hon]
        decide
      rw [if_pos hclosed]
      exact .ok _ h
  | some adapter =>
  rw [hadapter] at hon
  have hopen : ¬ ¬ l.adapter = true := not_not.mpr hon.symm
  rw [if_neg hopen]
  cases hdecode : decodeHandle a env.heap inputInfo with
  | fault => exact .fault
  | fail c => exact .ok _ h
  | ok handle =>
  dsimp only
  by_cases hrelease : env.releaseHandle = Retcode.success
  swap
  · rw [if_pos hrelease, if_pos hrelease]
    exact .ok _ ⟨hon, h.invoked, h.voices⟩
  rw [if_neg (not_not.mpr hrelease), if_neg (not_not.mpr hrelease)]
  have hfreed := h.erase handle
    (some (adapter.releaseHandle handle env.releaseHandle)) hon
  by_cases hunload : isFullUnload ∧ env.deinit ≠ Retcode.success
  · rw [if_pos hunload, if_pos hunload]
    exact .ok _ hfreed
  · rw [if_neg hunload, if_neg hunload]
    exact .ok _ hfreed

theorem call_follows (h : Listens a s l) (c : KWSCall) :
    Follows .badAlloc (Listens a) (s.call a cast atof c)
      (l.call a cast atof c) := by
  cases c with
  | prepare env outputInfo => exact prepare_follows cast atof h env outputInfo
  | syncProcess request env => exact syncProcess_follows cast atof h request env
  | release isFullUnload inputInfo env =>
      exact release_follows cast atof h isFullUnload inputInfo env

end

/-- Every sequence of calls is answered as by the listener, with the models
run on the same inputs and the same handles left, unless an allocation throws
on the way. -/
theorem kws_session_listens (a : Abi) (cast : Cast)
    (atof : List UInt8 → Float32) (calls : List KWSCall) :
    session (KWSInference.call a cast atof) .new calls =
        .fail .badAlloc ∨
      (session (KWSInference.call a cast atof) .new calls = .fault ∧
        session (KwsListener.call a cast atof) .new calls = .fault) ∨
      ∃ answers s l,
        session (KWSInference.call a cast atof) .new calls =
          .ok (answers, s) ∧
        session (KwsListener.call a cast atof) .new calls =
          .ok (answers, l) ∧
        s.invoked = l.invoked ∧
        ∀ handle, handle ∈ s.plugin.handles ↔ handle ∈ l.voices := by
  have hnew : Listens a .new .new := ⟨rfl, rfl, fun _ => .none⟩
  rcases session_follows (fun s l c h => call_follows cast atof h c) calls
      hnew with hthrown | hrel
  · exact .inl hthrown
  · right
    generalize session (KWSInference.call a cast atof) .new calls = x at hrel ⊢
    generalize session (KwsListener.call a cast atof) .new calls = y at hrel ⊢
    cases hrel with
    | @ok x y hxy =>
        obtain ⟨answers, s⟩ := x
        obtain ⟨answers', l⟩ := y
        obtain ⟨hanswers, hlistens⟩ := hxy
        obtain rfl : answers = answers' := hanswers
        exact .inr ⟨answers, s, l, rfl, rfl, hlistens.invoked,
          fun handle => (hlistens.voices handle).mem_iff⟩
    | fail h => exact h.elim
    | fault => exact .inl ⟨rfl, rfl⟩

end AiEngine.Ref
