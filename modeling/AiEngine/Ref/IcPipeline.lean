import AiEngine.Lib.Machine
import AiEngine.Lib.Session
import AiEngine.Ref.IcInference
import AiEngine.Ref.ImageTransfer
import AiEngine.Ref.KwsPipeline

/-!
# From the image of a user to its labels

The image classification SDK of a client with the plugin of the server behind
it, both with the codec they use. Every slice of an image is a request of its
own: it may get lost on its way, or its answer may, and before it arrives the
plugin may have answered other clients.

`OnSyncExecute` takes the least of a `size_t` and a `uint32_t`, so it is built
where these are one type.
-/

namespace AiEngine.Ref

open AiEngine.Lib

namespace IcRetCode

def initError : Int := 1001
def serializationError : Int := 2001
def unserializationError : Int := 2002

end IcRetCode

/-- `INVALID_IC_HANDLE`. -/
def invalidIcHandle : Int := -1

/-- An `Array<uint8_t>` of these bytes. -/
def byteArray (bytes : List UInt8) : CArray .uint8 :=
  ⟨some (bytes.map (·.toBitVec)), bytes.length,
    by rintro _ ⟨⟩; exact List.length_map _⟩

/-- `ProcessEncode(inputInfo, icHandle_, offset, tmpImage)`. -/
def encodeSlice (heap : Nat → Bool) (inputInfo : DataInfo) (icHandle : Int)
    (offset : Nat) (tmpImage : List UInt8) :
    Outcome (Int × DataInfo) DataInfo :=
  processEncode .ilp32 heap inputInfo
    [⟨.fixed Abi.ilp32.wordSize, intptr .ilp32 icHandle⟩,
      ⟨.fixed 4, uint32 offset⟩, ⟨.array .uint8, byteArray tmpImage⟩]

/-- What a slice meets. -/
structure IcSliceEnv where
  encodeHeap : Nat → Bool
  /-- What the plugin is asked by others before. -/
  others : List (ICCall .ilp32)
  transmission : Transmission
  process : ICProcessEnv

/-- What an image meets: its slices, by their number, and the decoding of the
result. -/
structure IcImageEnv where
  slice : Nat → IcSliceEnv
  decodeHeap : Nat → Bool

/-- What `Create` meets. -/
structure IcCreateEnv where
  /-- `AieClientInit`, with the client's id. -/
  clientInit : Int
  clientId : Int
  others : List (ICCall .ilp32)
  transmission : Transmission
  prepare : ICPrepareEnv .ilp32
  decodeHeap : Nat → Bool
  /-- What a handle that is not decoded is left as. -/
  handle : Int

/-! ## The SDK and the plugin

The functions of the SDK again, with the plugin at the other end: a request is
encoded, served by the plugin beside any calls of others, and its result
decoded. Every allocation and every message may be refused. -/

/-- `IcSdkImpl`, whether it has a callback, and the calls this has had. -/
structure IcSdkImpl where
  icHandle : Int
  clientId : Int
  callback : Bool
  events : List (IcEvent (List Int32))

/-- A call of the callback, if there is one. -/
def IcSdkImpl.report (s : IcSdkImpl) (event : IcEvent (List Int32)) :
    IcSdkImpl :=
  if s.callback then { s with events := s.events ++ [event] } else s

/-- `IcSdkImpl` and the plugin. -/
structure IcPipeline where
  sdk : IcSdkImpl
  plugin : ICInference

namespace IcPipeline

section

variable (H : HeapAlgorithms heapComparer)

/-- The plugin answers others. -/
def serve (plugin : ICInference) (others : List (ICCall .ilp32)) :
    Outcome Thrown ICInference := do
  let (_, plugin) ← session (ICInference.call .ilp32 H) plugin others
  .ok plugin

/-- `AieClientPrepare`. -/
def aieClientPrepare (plugin : ICInference) (env : IcCreateEnv) :
    Outcome Thrown (Int × DataInfo × ICInference) := do
  let plugin ← serve H plugin env.others
  match env.transmission with
  | .lost => .ok (Retcode.failure, ⟨.null, 0⟩, plugin)
  | .unanswered => do
      let (_, _, plugin) ← plugin.prepare .ilp32 env.prepare ⟨.null, 0⟩
      .ok (Retcode.failure, ⟨.null, 0⟩, plugin)
  | .answered => plugin.prepare .ilp32 env.prepare ⟨.null, 0⟩

/-- `AieClientSyncProcess`. -/
def aieClientSyncProcess (plugin : ICInference) (inputInfo : DataInfo)
    (env : IcSliceEnv) : Outcome Thrown (Int × DataInfo × ICInference) := do
  let plugin ← serve H plugin env.others
  match env.transmission with
  | .lost => .ok (Retcode.failure, ⟨.null, 0⟩, plugin)
  | .unanswered => do
      let (_, _, plugin) ←
        plugin.syncProcess .ilp32 H (some inputInfo) env.process
      .ok (Retcode.failure, ⟨.null, 0⟩, plugin)
  | .answered => do
      let (retCode, result, plugin) ←
        plugin.syncProcess .ilp32 H (some inputInfo) env.process
      if retCode ≠ Retcode.success then
        .ok (Retcode.algorithmProcessError, ⟨.null, 0⟩, plugin)
      else .ok (Retcode.success, result.getD ⟨.null, 0⟩, plugin)

/-- A call of the callback. -/
def report (s : IcPipeline) (event : IcEvent (List Int32)) : IcPipeline :=
  { s with sdk := s.sdk.report event }

/-- `Create`. -/
def create (s : IcPipeline) (env : IcCreateEnv) :
    Outcome Thrown (Int × IcPipeline) :=
  if s.sdk.icHandle ≠ invalidIcHandle then .ok (IcRetCode.initError, s)
  else
    let s := { s with sdk := { s.sdk with clientId := env.clientId } }
    let refused (s : IcPipeline) : Int × IcPipeline :=
      (IcRetCode.initError, s.report (.onError IcRetCode.initError))
    if env.clientInit ≠ Retcode.success then .ok (refused s)
    else if s.sdk.clientId = -1 then .ok (refused s)
    else do
      let (retCode, outputInfo, plugin) ← aieClientPrepare H s.plugin env
      let s := { s with plugin }
      if retCode ≠ Retcode.success then .ok (refused s)
      else if outputInfo.data = .null ∨ outputInfo.length ≤ 0 then
        .ok (refused s)
      else
        match decodeHandle .ilp32 env.decodeHeap outputInfo with
        | .fault => .fault
        | .fail _ =>
            let s := { s with sdk := { s.sdk with icHandle := env.handle } }
            .ok (IcRetCode.unserializationError,
              s.report (.onError IcRetCode.unserializationError))
        | .ok icHandle => .ok (IcRetCode.success,
            { s with sdk := { s.sdk with icHandle } })

/-- The loop of `OnSyncExecute` from an offset on, for a number of rounds. -/
def sendSlices (env : Nat → IcSliceEnv) (image : List UInt8)
    (s : IcPipeline) (offset : Nat) (outputInfo : DataInfo) :
    Nat → Outcome Thrown (Int × DataInfo × IcPipeline)
  | 0 => .fault
  | rounds + 1 =>
      if offset < image.length then
        let size := min (image.length - offset) maxIpcBufferSize
        let tmpImage := (image.drop offset).take size
        let env' := env (offset / maxIpcBufferSize)
        match encodeSlice env'.encodeHeap ⟨.null, 0⟩ s.sdk.icHandle offset
            tmpImage with
        | .fault => .fault
        | .fail (_, _) => .ok (IcRetCode.serializationError, ⟨.null, 0⟩,
            s.report (.onError IcRetCode.serializationError))
        | .ok inputInfo => do
            let (retCode, outputInfo, plugin) ←
              aieClientSyncProcess H s.plugin inputInfo env'
            let s := { s with plugin }
            if retCode ≠ Retcode.success then
              .ok (IcRetCode.failure, outputInfo,
                s.report (.onError IcRetCode.failure))
            else
              sendSlices env image s (Abi.ilp32.sizeT (offset + size))
                outputInfo rounds
      else .ok (IcRetCode.success, outputInfo, s)

/-- `OnSyncExecute`, with the code, the output and the rest. Each round sends
a byte or more. -/
def onSyncExecute (env : Nat → IcSliceEnv) (s : IcPipeline)
    (inputData : Option (List UInt8)) :
    Outcome Thrown (Int × DataInfo × IcPipeline) :=
  match inputData with
  | none => .ok (IcRetCode.nullParam, ⟨.null, 0⟩, s)
  | some image =>
      if image.length = 0 then .ok (IcRetCode.nullParam, ⟨.null, 0⟩, s)
      else sendSlices H env image s 0 ⟨.null, 0⟩ (image.length + 1)

/-- `SyncExecute`. -/
def syncExecute (env : IcImageEnv) (s : IcPipeline)
    (inputData : Option (List UInt8)) : Outcome Thrown (Int × IcPipeline) := do
  let (retCode, outputInfo, s) ← onSyncExecute H env.slice s inputData
  if outputInfo.data = .null ∨ outputInfo.length ≤ 0 ∨
      retCode ≠ IcRetCode.success then
    .ok (retCode, s.report (.onError IcRetCode.failure))
  else
    match decodeResult .ilp32 env.decodeHeap outputInfo with
    | .fault => .fault
    | .fail _ => .ok (IcRetCode.unserializationError,
        s.report (.onError IcRetCode.unserializationError))
    | .ok (receivedHandle, icResult) =>
        if s.sdk.icHandle ≠ receivedHandle then
          .ok (IcRetCode.failure, s.report (.onError IcRetCode.failure))
        else .ok (IcRetCode.success,
          s.report (.onResult (int32s (icResult.data.getD []))))

end

end IcPipeline

inductive IcStep where
  | setCallback
  | syncExecute (inputData : Option (List UInt8)) (env : IcImageEnv)
  | others (calls : List (ICCall .ilp32))

/-- A step, which ends the run if a process does not survive it. The size of
an image is a `size_t`. -/
def IcPipeline.step (H : HeapAlgorithms heapComparer) (s : IcPipeline) :
    IcStep → Option IcPipeline
  | .setCallback => some { s with sdk := { s.sdk with callback := true } }
  | .syncExecute inputData env =>
      if Abi.ilp32.sizeMod ≤ (inputData.getD []).length then none
      else
        match s.syncExecute H env inputData with
        | .ok (_, s) => some s
        | .fail _ => none
        | .fault => none
  | .others calls =>
      match serve H s.plugin calls with
      | .ok plugin => some { s with plugin }
      | .fail _ => none
      | .fault => none

/-- What is done with an SDK that was created. -/
def classifyingMachine (H : HeapAlgorithms heapComparer)
    (created : IcPipeline) : Machine IcPipeline IcStep where
  start s := s = created
  step := IcPipeline.step H

end AiEngine.Ref
