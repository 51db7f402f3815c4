import AiEngine.Ref.IcOutput
import AiEngine.Ref.ImagePlugin
import AiEngine.Ref.KwsInference

/-!
# The image classification plugin and its messages

`ic_plugin.cpp` with the codec it really uses: what it decodes from the
messages it is given, what it writes into the model inputs of its handles, the
scores it picks and what it encodes of them. Of the adapter only the answers
are known. What is in a model input when `Invoke` is called is kept.
-/

namespace AiEngine.Ref

open AiEngine.Lib

/-- The bytes of a `uint32_t`. -/
def uint32 (n : Nat) : Vector UInt8 4 := ⟨(leBytes 4 n).toArray, by simp⟩

/-- The bytes of a `size_t`. -/
def sizeBytes (a : Abi) (n : Nat) : Vector UInt8 a.wordSize :=
  ⟨(leBytes a.wordSize n).toArray, by simp⟩

section

variable (a : Abi) (heap : Nat → Bool)

/-- `ProcessDecode(inputInfo, handle, slicedIndex, slicedImage)`. -/
def decodeSlice (inputInfo : DataInfo) :
    Outcome Int (Int × Nat × CArray .uint8) := do
  match ← processDecode a heap inputInfo (slicedStorage a) with
  | [⟨.fixed _, handle⟩, ⟨.fixed _, slicedIndex⟩,
      ⟨.array .uint8, slicedImage⟩] =>
      .ok (intptrValue a handle.toList, leNat slicedIndex.toList, slicedImage)
  | _ => .fault

/-- `ProcessDecode(inputInfo, handle, tmpUInt32Val)`. -/
def decodeUInt32 (inputInfo : DataInfo) : Outcome Int (Int × Nat) := do
  match ← processDecode a heap inputInfo
      [⟨.fixed a.wordSize, ParamType.fresh _⟩,
        ⟨.fixed 4, ParamType.fresh _⟩] with
  | [⟨.fixed _, handle⟩, ⟨.fixed _, val⟩] =>
      .ok (intptrValue a handle.toList, leNat val.toList)
  | _ => .fault

/-- `ProcessEncode(outputInfo, handle, size)`. -/
def encodeSizeT (outputInfo : DataInfo) (handle : Int) (size : Nat) :
    Outcome (Int × DataInfo) DataInfo :=
  processEncode a heap outputInfo
    [⟨.fixed a.wordSize, intptr a handle⟩,
      ⟨.fixed a.wordSize, sizeBytes a size⟩]

end

/-- `OPTION_GET_INPUT_SIZE`. -/
def optionGetInputSize : Int := 1001

/-- `OPTION_GET_OUTPUT_SIZE`. -/
def optionGetOutputSize : Int := 1002

/-- `OPTION_SET_OUTPUT_SIZE`. -/
def optionSetOutputSize : Int := 2002

/-- `ICPluginConfig`, with the model input that is at `inputAddr`. -/
structure ICWorker where
  inputSize : Nat
  outputSize : Nat
  input : List UInt8
  outputAddr : Nat
  maxOutputSize : Nat
  deriving DecidableEq, Repr

/-- What the adapter answers to `GetInputAddr`: the address of a model input
that has the size it tells. -/
structure InputReply (a : Abi) where
  retCode : Int
  input : List UInt8
  size_lt : input.length < a.sizeMod

/-- What it answers to `GetOutputAddr`: the address of that many scores. -/
structure OutputReply (a : Abi) where
  retCode : Int
  addr : Nat
  size : Nat
  size_lt : 4 * size < a.sizeMod

/-- What a call of `Prepare` meets. -/
structure ICPrepareEnv (a : Abi) where
  newAdapter : Bool
  /-- The new handle, if `Init` succeeds. -/
  init : Option Int
  inputAddr : InputReply a
  outputAddr : OutputReply a
  heap : Nat → Bool

/-- What a call of `SyncProcess` meets. -/
structure ICProcessEnv where
  decodeHeap : Nat → Bool
  invoke : Int
  /-- The scores that `Invoke` leaves. -/
  output : Nat → Int32
  /-- Whether there is memory for the items of `GetTopK`. -/
  newItems : Bool
  encodeHeap : Nat → Bool
  /-- Whether `IResponse::Create` makes a response. -/
  newResponse : Bool

/-- What a call of `Release` meets. -/
abbrev ICReleaseEnv := KWSReleaseEnv

/-- The scores of a model. -/
def ICWorker.scores (worker : ICWorker) (env : ICProcessEnv) : List Int32 :=
  (List.range worker.maxOutputSize).map env.output

/-! ## The plugin

The functions of the plugin with the messages as bytes: what arrives is
decoded, and what is returned is encoded, each with an allocator that may
refuse. -/

/-- `ICPlugin`, and the model inputs its inferences ran on. -/
structure ICInference where
  plugin : PluginHandles ICWorker
  invoked : List (Int × List UInt8)

namespace ICInference

def new : ICInference := ⟨.new, []⟩

/-- The entry of `handles_` for a handle is this one. -/
def setWorker (s : ICInference) (handle : Int) (worker : ICWorker) :
    ICInference :=
  { s with plugin := { s.plugin with
    handles := s.plugin.handles.insert handle worker } }

section

variable (a : Abi) (H : HeapAlgorithms heapComparer)

/-- `BuildConfig`. -/
def buildConfig (env : ICPrepareEnv a) : Option ICWorker :=
  if env.inputAddr.retCode ≠ Retcode.success then none
  else if env.outputAddr.retCode ≠ Retcode.success then none
  else some {
    inputSize := env.inputAddr.input.length
    outputSize := ICPlugin.defaultOutputSize
    input := env.inputAddr.input
    outputAddr := env.outputAddr.addr
    maxOutputSize := env.outputAddr.size }

/-- `Prepare`. -/
def prepare (s : ICInference) (env : ICPrepareEnv a) (outputInfo : DataInfo) :
    Outcome Thrown (Int × DataInfo × ICInference) :=
  match s.plugin.getAdapter env.newAdapter with
  | none => .ok (Retcode.failure, outputInfo, s)
  | some adapter =>
      let s := { s with
        plugin := { s.plugin with adapter := some (adapter.init env.init) } }
      match env.init with
      | none => .ok (Retcode.failure, outputInfo, s)
      | some handle =>
          if handle ∈ s.plugin.handles then
            .ok (Retcode.success, outputInfo, s)
          else
            match buildConfig a env with
            | none => .ok (Retcode.failure, outputInfo, s)
            | some config => do
                let s := { s with
                  plugin := { s.plugin with
                    handles := s.plugin.handles.insertNew handle config } }
                let (retCode, outputInfo) ←
                  encoded (encodeHandle a env.heap outputInfo handle)
                .ok (retCode, outputInfo, s)

/-- `MakeInference` and `DoProcess`, with the result of the response. Where
there is no response, `SetResult` is called on a null pointer. -/
def doProcess (handle : Int) (config : ICWorker) (env : ICProcessEnv) :
    Outcome Thrown (Int × Option DataInfo) :=
  if env.invoke = Retcode.success ∧ ¬ env.newItems then .fail .badAlloc
  else
    match makeInference a env.encodeHeap H env.invoke (intptr a handle)
        ⟨if config.outputAddr = 0 then none else some (config.scores env),
          config.outputSize⟩ ⟨.null, 0⟩ with
    | none => .fault
    | some (retCode, outputInfo) =>
        if retCode ≠ Retcode.success then .ok (retCode, none)
        else if env.newResponse then .ok (Retcode.success, some outputInfo)
        else .fault

/-- `SyncProcess` from the lookup of the handle on. -/
def copySlice (s : ICInference) (handle : Int) (slicedIndex : Nat)
    (slicedImage : CArray .uint8) (env : ICProcessEnv) :
    Outcome Thrown (Int × Option DataInfo × ICInference) :=
  match s.plugin.handles.lookup handle with
  | none => .ok (Retcode.failure, none, s)
  | some config =>
      let sliceEnd := a.sizeT (slicedIndex + slicedImage.size)
      if config.inputSize < sliceEnd then .ok (Retcode.failure, none, s)
      else
        match slicedImage.data with
        | none => .ok (Retcode.failure, none, s)
        | some data =>
            match memcpyS config.input slicedIndex
                (a.sub config.inputSize slicedIndex) (elemBytes data) 0
                slicedImage.size with
            | .fault => .fault
            | .fail _ => .ok (Retcode.failure, none, s)
            | .ok input =>
                let config := { config with input }
                let s := s.setWorker handle config
                if sliceEnd = config.inputSize then do
                  let (retCode, result) ← doProcess a H handle config env
                  .ok (retCode, result, { s with
                    invoked := s.invoked ++ [(handle, input)] })
                else .ok (Retcode.success, none, s)

/-- `SyncProcess`, with the result of the response where there is one. -/
def syncProcess (s : ICInference) (request : Option DataInfo)
    (env : ICProcessEnv) :
    Outcome Thrown (Int × Option DataInfo × ICInference) :=
  match s.plugin.adapter with
  | none => .ok (Retcode.failure, none, s)
  | some _ =>
      match request with
      | none => .ok (Retcode.nullParam, none, s)
      | some inputInfo =>
          if inputInfo.data = .null ∨ inputInfo.length ≤ 0 then
            .ok (Retcode.nullParam, none, s)
          else
            match decodeSlice a env.decodeHeap inputInfo with
            | .fault => .fault
            | .fail retCode => .ok (retCode, none, s)
            | .ok (handle, slicedIndex, slicedImage) =>
                s.copySlice a H handle slicedIndex slicedImage env

/-- `SetOption`. -/
def setOption (s : ICInference) (optionType : Int) (inputInfo : DataInfo)
    (heap : Nat → Bool) : Outcome Thrown (Int × ICInference) :=
  if inputInfo.data = .null ∨ inputInfo.length ≤ 0 then
    .ok (Retcode.nullParam, s)
  else if optionType ≠ optionSetOutputSize then .ok (Retcode.failure, s)
  else
    match decodeUInt32 a heap inputInfo with
    | .fault => .fault
    | .fail retCode => .ok (retCode, s)
    | .ok (handle, outputSize) =>
        match s.plugin.handles.lookup handle with
        | none => .ok (Retcode.failure, s)
        | some config =>
            if 0 < outputSize ∧ outputSize ≤ config.maxOutputSize then
              .ok (Retcode.success,
                s.setWorker handle { config with outputSize })
            else .ok (Retcode.success, s)

/-- `GetOption`. -/
def getOption (s : ICInference) (optionType : Int)
    (inputInfo outputInfo : DataInfo) (decodeHeap encodeHeap : Nat → Bool) :
    Outcome Thrown (Int × DataInfo) :=
  if inputInfo.data = .null ∨ inputInfo.length ≤ 0 then
    .ok (Retcode.nullParam, outputInfo)
  else
    match decodeHandle a decodeHeap inputInfo with
    | .fault => .fault
    | .fail retCode => .ok (retCode, outputInfo)
    | .ok handle =>
        match s.plugin.handles.lookup handle with
        | none => .ok (Retcode.failure, outputInfo)
        | some config =>
            let outputInfo := { outputInfo with length := 0 }
            if optionType = optionGetInputSize then
              encoded (encodeSizeT a encodeHeap outputInfo handle
                config.inputSize)
            else if optionType = optionGetOutputSize then
              encoded (encodeSizeT a encodeHeap outputInfo handle
                config.outputSize)
            else .ok (Retcode.failure, outputInfo)

/-- `Release`. -/
def release (s : ICInference) (isFullUnload : Bool) (inputInfo : DataInfo)
    (env : ICReleaseEnv) : Outcome Thrown (Int × ICInference) :=
  match s.plugin.adapter with
  | none => .ok (Retcode.failure, s)
  | some adapter =>
      match decodeHandle a env.heap inputInfo with
      | .fault => .fault
      | .fail _ => .ok (Retcode.failure, s)
      | .ok handle =>
          if handle ∉ s.plugin.handles then .ok (Retcode.nullParam, s)
          else
            let adapter := adapter.releaseHandle handle env.releaseHandle
            let s := { s with
              plugin := { s.plugin with adapter := some adapter } }
            if env.releaseHandle ≠ Retcode.success then
              .ok (Retcode.failure, s)
            else
              let s := { s with
                plugin := { s.plugin with
                  handles := s.plugin.handles.erase handle } }
              if isFullUnload ∧ env.deinit ≠ Retcode.success then
                .ok (Retcode.failure, s)
              else .ok (Retcode.success, s)

end

end ICInference

inductive ICCall (a : Abi) where
  | prepare (env : ICPrepareEnv a) (outputInfo : DataInfo)
  | syncProcess (request : Option DataInfo) (env : ICProcessEnv)
  | setOption (optionType : Int) (inputInfo : DataInfo) (heap : Nat → Bool)
  | getOption (optionType : Int) (inputInfo outputInfo : DataInfo)
      (decodeHeap encodeHeap : Nat → Bool)
  | release (isFullUnload : Bool) (inputInfo : DataInfo) (env : ICReleaseEnv)

/-- What a call answers. -/
inductive ICAnswer where
  | prepared (retCode : Int) (outputInfo : DataInfo)
  | processed (retCode : Int) (result : Option DataInfo)
  | optionSet (retCode : Int)
  | optionGot (retCode : Int) (outputInfo : DataInfo)
  | released (retCode : Int)
  deriving DecidableEq, Repr

def ICInference.call (a : Abi) (H : HeapAlgorithms heapComparer)
    (s : ICInference) : ICCall a → Outcome Thrown (ICAnswer × ICInference)
  | .prepare env outputInfo => do
      let (retCode, outputInfo, s) ← s.prepare a env outputInfo
      .ok (.prepared retCode outputInfo, s)
  | .syncProcess request env => do
      let (retCode, result, s) ← s.syncProcess a H request env
      .ok (.processed retCode result, s)
  | .setOption optionType inputInfo heap => do
      let (retCode, s) ← s.setOption a optionType inputInfo heap
      .ok (.optionSet retCode, s)
  | .getOption optionType inputInfo outputInfo decodeHeap encodeHeap => do
      let (retCode, outputInfo) ←
        s.getOption a optionType inputInfo outputInfo decodeHeap encodeHeap
      .ok (.optionGot retCode outputInfo, s)
  | .release isFullUnload inputInfo env => do
      let (retCode, s) ← s.release a isFullUnload inputInfo env
      .ok (.released retCode, s)

end AiEngine.Ref
