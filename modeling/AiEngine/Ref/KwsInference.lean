import AiEngine.Ref.Encdec
import AiEngine.Ref.FeatureProcessors
import AiEngine.Ref.PluginHandles

/-!
# What the keyword spotting plugin gives to its model

`kws_plugin.cpp` with the feature processors and the codec it really uses:
`Prepare` sets up three processors for a new handle, and `SyncProcess` sends
the audio of a request through them and what comes out to the model. Of
the adapter only the answers are known. The model input has `inputSize`
elements, and what is in it when `Invoke` is called is kept.
-/

namespace AiEngine.Ref

open AiEngine.Lib

/-- The bytes of an `intptr_t`. -/
def intptr (a : Abi) (handle : Int) : Vector UInt8 a.wordSize :=
  ⟨(leBytes a.wordSize (handle % a.sizeMod).toNat).toArray, by simp⟩

/-- The `intptr_t` of these bytes. -/
def intptrValue (a : Abi) (bytes : List UInt8) : Int :=
  (leNat bytes : Int).bmod a.sizeMod

section

variable (a : Abi) (heap : Nat → Bool)

/-- `ProcessDecode(inputInfo, handle)`. -/
def decodeHandle (inputInfo : DataInfo) : Outcome Int Int := do
  match ← processDecode a heap inputInfo
      [⟨.fixed a.wordSize, ParamType.fresh _⟩] with
  | [⟨.fixed _, handle⟩] => .ok (intptrValue a handle.toList)
  | _ => .fault

/-- `ProcessDecode(inputInfo, handle, audioInput)`. -/
def decodeAudio (inputInfo : DataInfo) :
    Outcome Int (Int × CArray .uint16) := do
  match ← processDecode a heap inputInfo
      [⟨.fixed a.wordSize, ParamType.fresh _⟩,
        ⟨.array .uint16, ParamType.fresh _⟩] with
  | [⟨.fixed _, handle⟩, ⟨.array .uint16, audioInput⟩] =>
      .ok (intptrValue a handle.toList, audioInput)
  | _ => .fault

/-- `ProcessEncode(outputInfo, handle)`. -/
def encodeHandle (outputInfo : DataInfo) (handle : Int) :
    Outcome (Int × DataInfo) DataInfo :=
  processEncode a heap outputInfo [⟨.fixed a.wordSize, intptr a handle⟩]

/-- `ProcessEncode(outputInfo, handle, result)`. -/
def encodeResult (outputInfo : DataInfo) (handle : Int)
    (result : CArray .int32) : Outcome (Int × DataInfo) DataInfo :=
  processEncode a heap outputInfo
    [⟨.fixed a.wordSize, intptr a handle⟩, ⟨.array .int32, result⟩]

end

/-- What a function answers that returns the code of its encoding. -/
def encoded : Outcome (Int × DataInfo) DataInfo →
    Outcome Thrown (Int × DataInfo)
  | .ok outputInfo => .ok (Retcode.success, outputInfo)
  | .fail (retCode, outputInfo) => .ok (retCode, outputInfo)
  | .fault => .fault

/-- `DEFAULT_SLIDE_STEP_SIZE`, and with it `DEFAULT_NORM_INPUT_SIZE`. -/
def defaultSlideStepSize : Nat := 400

/-- `DEFAULT_SLIDE_WINDOW_SIZE`. -/
def defaultSlideWindowSize : Nat := 4000

/-- `DEFAULT_NORM_NUM_CHANNELS`. -/
def defaultNormNumChannels : Nat := 40

/-- `DEFAULT_NORM_MEAN_FILE_PATH`. -/
def defaultNormMeanFilePath : String := "/storage/data/kws_mean.txt"

/-- `DEFAULT_NORM_STD_FILE_PATH`. -/
def defaultNormStdFilePath : String := "/storage/data/kws_std.txt"

/-- `slideWindowConfig` of `InitComponents`. -/
def slideWindowConfig : SlideWindowProcessorConfig where
  dataType := .int32
  bufferMultiplier := 4
  stepSize := defaultSlideStepSize
  windowSize := defaultSlideWindowSize

/-- `convertConfig` of `InitComponents`. -/
def convertConfig : TypeConverterConfig where
  dataType := .int32
  size := defaultSlideStepSize

/-- `normConfig` of `InitComponents`. -/
def normConfig : NormProcessorConfig where
  meanFilePath := defaultNormMeanFilePath
  stdFilePath := defaultNormStdFilePath
  numChannels := defaultNormNumChannels
  inputSize := defaultSlideStepSize
  scale := 4096

/-! ## A workplace

What the plugin keeps for a handle: the three processors in a row, each with
the buffer that it hands to the next, and the input of the model. -/

/-- `KWSWorkplace` with its processors. -/
structure KWSWorker extends KWSWorkplace where
  normProcessor : NormProcessor
  typeConverter : TypeConverter
  slideProcessor : SlideWindowProcessor

/-- What a call of `Prepare` meets. -/
structure KWSPrepareEnv where
  newAdapter : Bool
  /-- The new handle, if `Init` succeeds. -/
  init : Option Int
  inputAddr : AddrReply
  outputAddr : AddrReply
  /-- Whether there is memory for the work buffers of the slide window
  processor and the type converter. -/
  slideBuffer : Bool
  convertBuffer : Bool
  norm : NormMemory
  heap : Nat → Bool

/-- What a call of `SyncProcess` meets. -/
structure KWSProcessEnv where
  decodeHeap : Nat → Bool
  encodeHeap : Nat → Bool
  /-- Whether there is memory for the indices of the two conversions. -/
  normIndices : Bool
  convertIndices : Bool
  invoke : Int
  /-- The model output that `Invoke` leaves. -/
  output : Nat → ElemType.Val .int32

/-- What a call of `Release` meets. -/
structure KWSReleaseEnv where
  heap : Nat → Bool
  releaseHandle : Int
  deinit : Int

/-- The bytes of the elements of an array. -/
def elemBytes {t : ElemType} (xs : List t.Val) : List UInt8 :=
  xs.flatMap fun x => leBytes t.size x.toNat

/-- The bytes of an array of floats. -/
def floatBytes (xs : List Float32) : List UInt8 :=
  xs.flatMap fun x => leBytes DataType.float.size x.toBits.toNat

/-- `KWSPlugin`, and the model inputs its inferences ran on. -/
structure KWSInference where
  plugin : PluginHandles KWSWorker
  invoked : List (Int × List UInt8)

namespace KWSInference

def new : KWSInference := ⟨.new, []⟩

section

variable (a : Abi) (cast : Cast) (atof : List UInt8 → Float32)

/-- `InitWorkplace` with the configurations of `InitComponents`. -/
def initWorkplace (config : PluginConfig) (env : KWSPrepareEnv) :
    Outcome Int KWSWorker :=
  match SlideWindowProcessor.new.init a (some slideWindowConfig)
      env.slideBuffer with
  | (retCode, slideProcessor) =>
      if retCode ≠ Retcode.success then .fail Retcode.failure
      else
        match TypeConverter.new.init a (some convertConfig)
            env.convertBuffer with
        | (retCode, typeConverter) =>
            if retCode ≠ Retcode.success then .fail Retcode.failure
            else
              match NormProcessor.new.init a atof (some normConfig)
                  env.norm with
              | none => .fault
              | some (retCode, normProcessor) =>
                  if retCode ≠ Retcode.success then .fail Retcode.failure
                  else .ok ⟨⟨config⟩, normProcessor, typeConverter,
                    slideProcessor⟩

/-- `BuildConfig`. -/
def buildConfig (env : KWSPrepareEnv) : Option PluginConfig :=
  if env.inputAddr.retCode ≠ Retcode.success then none
  else if env.outputAddr.retCode ≠ Retcode.success then none
  else some ⟨env.inputAddr.size, env.outputAddr.size, env.inputAddr.addr,
    env.outputAddr.addr⟩

/-- `Prepare`. -/
def prepare (s : KWSInference) (env : KWSPrepareEnv) (outputInfo : DataInfo) :
    Outcome Thrown (Int × DataInfo × KWSInference) :=
  match s.plugin.getAdapter env.newAdapter with
  | none => .ok (Retcode.failure, outputInfo, s)
  | some adapter =>
      let s := { s with
        plugin := { s.plugin with adapter := some (adapter.init env.init) } }
      match env.init with
      | none => .ok (Retcode.failure, outputInfo, s)
      | some handle =>
          if handle ∈ s.plugin.handles then
            .ok (Retcode.success, outputInfo, s)
          else
            match buildConfig env with
            | none => .ok (Retcode.failure, outputInfo, s)
            | some config =>
                match initWorkplace a atof config env with
                | .fault => .fault
                | .fail _ => .ok (Retcode.failure, outputInfo, s)
                | .ok worker => do
                    let s := { s with
                      plugin := { s.plugin with
                        handles := s.plugin.handles.insertNew handle worker } }
                    let (retCode, outputInfo) ←
                      encoded (encodeHandle a env.heap outputInfo handle)
                    .ok (retCode, outputInfo, s)

/-- `GetNormedFeatures`. The output leads into the work buffer of the slide
window processor. -/
def getNormedFeatures (worker : KWSWorker) (input : CArray .uint16)
    (env : KWSProcessEnv) :
    Outcome Thrown (Int × FeatureData Nat × KWSWorker) := do
  let inputData : FeatureData (List UInt8) :=
    ⟨.uint16, input.data.map elemBytes, input.size⟩
  let (retCode, normedOutput, normProcessor) ←
    worker.normProcessor.process a cast inputData ⟨.float, none, 0⟩
      env.normIndices
  let worker := { worker with normProcessor }
  if retCode ≠ Retcode.success then
    .ok (Retcode.failure, ⟨.int32, none, 0⟩, worker)
  else
    let normed : FeatureData (List UInt8) := { normedOutput with
      data := normedOutput.data.bind fun _ =>
        worker.normProcessor.workBuffer.map floatBytes }
    let (retCode, convertedOutput, typeConverter) ←
      worker.typeConverter.process a cast normed ⟨.int32, none, 0⟩
        env.convertIndices
    let worker := { worker with typeConverter }
    if retCode ≠ Retcode.success then
      .ok (Retcode.failure, ⟨.int32, none, 0⟩, worker)
    else
      let converted : FeatureData (List UInt8) := { convertedOutput with
        data := convertedOutput.data.bind fun _ =>
          WorkBuffer.bytes worker.typeConverter.workBuffer.data }
      match worker.slideProcessor.process a converted ⟨.int32, none, 0⟩ with
      | none => .fault
      | some (retCode, slideOutput, slideProcessor) =>
          let worker := { worker with slideProcessor }
          if retCode ≠ Retcode.success then
            .ok (Retcode.failure, ⟨.int32, none, 0⟩, worker)
          else .ok (Retcode.success, slideOutput, worker)

/-- `MakeInference` of an input that leads into `memory`; with its answer, the
model input if `Invoke` was called. -/
def makeInference (adapter : Option EngineAdapter) (handle : Int)
    (memory : List UInt8) (input : FeatureData Nat) (config : PluginConfig)
    (env : KWSProcessEnv) (outputInfo : DataInfo) :
    Outcome Thrown (Int × DataInfo × Option (List UInt8)) :=
  if adapter.isNone ∨ config.inputAddr = 0 ∨ config.outputAddr = 0 then
    .ok (Retcode.nullParam, outputInfo, none)
  else
    match input.data with
    | none => .ok (Retcode.failure, outputInfo, none)
    | some data =>
        if input.size ≠ config.inputSize then
          .ok (Retcode.failure, outputInfo, none)
        else
          let bufferSize := a.sizeT (config.inputSize * DataType.int32.size)
          match memcpyS (List.replicate bufferSize 0) 0 bufferSize memory data
              bufferSize with
          | .fault => .fault
          | .fail _ => .ok (Retcode.nullParam, outputInfo, none)
          | .ok inputData =>
              if env.invoke ≠ Retcode.success then
                .ok (Retcode.failure, outputInfo, some inputData)
              else do
                let result : CArray .int32 :=
                  ⟨some ((List.range config.outputSize).map env.output),
                    config.outputSize, by rintro _ ⟨⟩; simp⟩
                let (retCode, outputInfo) ← encoded
                  (encodeResult a env.encodeHeap outputInfo handle result)
                .ok (retCode, outputInfo, some inputData)

/-- `SyncProcess`, with the result of the response where there is one. -/
def syncProcess (s : KWSInference) (request : Option DataInfo)
    (env : KWSProcessEnv) :
    Outcome Thrown (Int × Option DataInfo × KWSInference) :=
  match request with
  | none => .ok (Retcode.nullParam, none, s)
  | some inputInfo =>
      if inputInfo.data = .null ∨ inputInfo.length ≤ 0 then
        .ok (Retcode.nullParam, none, s)
      else
        match decodeAudio a env.decodeHeap inputInfo with
        | .fault => .fault
        | .fail _ => .ok (Retcode.failure, none, s)
        | .ok (handle, audioInput) =>
            match s.plugin.handles.lookup handle with
            | none => .ok (Retcode.nullParam, none, s)
            | some worker => do
                let (retCode, output, worker) ←
                  getNormedFeatures a cast worker audioInput env
                let s := { s with
                  plugin := { s.plugin with
                    handles := s.plugin.handles.insert handle worker } }
                if retCode ≠ Retcode.success then
                  .ok (Retcode.failure, none, s)
                else
                  let (retCode, outputInfo, inputData) ←
                    makeInference a s.plugin.adapter handle
                      worker.slideProcessor.workBuffer output worker.config
                      env ⟨.null, 0⟩
                  let s := { s with
                    invoked :=
                      s.invoked ++ inputData.toList.map (handle, ·) }
                  if retCode ≠ Retcode.success then
                    .ok (Retcode.failure, none, s)
                  else .ok (Retcode.success, some outputInfo, s)

/-- `Release`. -/
def release (s : KWSInference) (isFullUnload : Bool) (inputInfo : DataInfo)
    (env : KWSReleaseEnv) : Outcome Thrown (Int × KWSInference) :=
  match s.plugin.adapter with
  | none => .ok (Retcode.failure, s)
  | some adapter =>
      match decodeHandle a env.heap inputInfo with
      | .fault => .fault
      | .fail _ => .ok (Retcode.failure, s)
      | .ok handle =>
          let adapter := adapter.releaseHandle handle env.releaseHandle
          let s := { s with
            plugin := { s.plugin with adapter := some adapter } }
          if env.releaseHandle ≠ Retcode.success then
            .ok (Retcode.failure, s)
          else
            let s := { s with
              plugin := { s.plugin with
                handles := s.plugin.handles.erase handle } }
            if isFullUnload ∧ env.deinit ≠ Retcode.success then
              .ok (Retcode.failure, s)
            else .ok (Retcode.success, s)

end

end KWSInference

inductive KWSCall where
  | prepare (env : KWSPrepareEnv) (outputInfo : DataInfo)
  | syncProcess (request : Option DataInfo) (env : KWSProcessEnv)
  | release (isFullUnload : Bool) (inputInfo : DataInfo) (env : KWSReleaseEnv)

/-- What a call answers. -/
inductive KWSAnswer where
  | prepared (retCode : Int) (outputInfo : DataInfo)
  | processed (retCode : Int) (result : Option DataInfo)
  | released (retCode : Int)
  deriving DecidableEq, Repr

def KWSInference.call (a : Abi) (cast : Cast) (atof : List UInt8 → Float32)
    (s : KWSInference) : KWSCall → Outcome Thrown (KWSAnswer × KWSInference)
  | .prepare env outputInfo => do
      let (retCode, outputInfo, s) ← s.prepare a atof env outputInfo
      .ok (.prepared retCode outputInfo, s)
  | .syncProcess request env => do
      let (retCode, result, s) ← s.syncProcess a cast request env
      .ok (.processed retCode result, s)
  | .release isFullUnload inputInfo env => do
      let (retCode, s) ← s.release a isFullUnload inputInfo env
      .ok (.released retCode, s)

end AiEngine.Ref
