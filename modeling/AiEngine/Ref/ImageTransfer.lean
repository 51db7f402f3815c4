import AiEngine.Lib.Machine
import AiEngine.Lib.Table
import AiEngine.Ref.Platform

/-!
# Images that are sent in slices

`OnSyncExecute` and `SyncExecute` of `ic_sdk_impl.cpp`, `SyncProcess` of
`ic_plugin.cpp`, and what `sync_msg_handler.cpp` and the server do with the
answer in between. What one side encodes and sends, the other side gets and
decodes. The inference is a parameter: what `Invoke`, `GetTopK` and the
encoding of its result make of the model input.

`OnSyncExecute` takes the least of a `size_t` and a `uint32_t`, so it is built
where these are one type.
-/

namespace AiEngine.Ref

open AiEngine.Lib

namespace IcRetCode

def success : Int := 0
def failure : Int := -1
def nullParam : Int := 1002

end IcRetCode

/-- `MAX_IPC_BUFFER_SIZE`. -/
def maxIpcBufferSize : Nat := 25600

/-- What the client encodes for one slice. -/
structure SlicedImage where
  handle : Int64
  slicedIndex : Nat
  slicedImage : List UInt8
  deriving DecidableEq, Repr

/-- `ICPluginConfig`, with the model input space at `inputAddr`. -/
structure ICPluginConfig where
  inputSize : Nat
  input : List UInt8
  deriving DecidableEq, Repr

/-- `ICPlugin`, and the model inputs its inferences ran on. -/
structure ICPlugin where
  handles : Table Int64 ICPluginConfig
  invoked : List (Int64 × List UInt8)

/-- What `MakeInference` encodes. -/
structure IcResult (ω : Type) where
  handle : Int64
  result : ω
  deriving DecidableEq, Repr

inductive IcEvent (ω : Type) where
  | onError (errorCode : Int)
  | onResult (result : ω)
  deriving DecidableEq, Repr

/-- `IcSdkImpl` with a handle that was created, its callback's record where it
has one, and the plugin it talks to. -/
structure IcSdk (ω : Type) where
  icHandle : Int64
  hasCallback : Bool
  events : List (IcEvent ω)
  plugin : ICPlugin

variable {ω : Type} (infer : List UInt8 → ω)

namespace ICPlugin

/-- `DoProcess`. -/
def doProcess (p : ICPlugin) (handle : Int64) (config : ICPluginConfig) :
    IcResult ω × ICPlugin :=
  (⟨handle, infer config.input⟩,
    { p with invoked := p.invoked ++ [(handle, config.input)] })

/-- `SyncProcess` with its return code and its response's result. It is none
where an access leaves the model input. -/
def syncProcess (p : ICPlugin) (request : SlicedImage) :
    Option (Int × Option (IcResult ω) × ICPlugin) :=
  match p.handles.lookup request.handle with
  | none => some (Retcode.failure, none, p)
  | some config =>
      let size := request.slicedImage.length
      let sliceEnd := Abi.ilp32.sizeT (request.slicedIndex + size)
      if config.inputSize < sliceEnd then some (Retcode.failure, none, p)
      else
        match memcpyS config.input request.slicedIndex
            (Abi.ilp32.sub config.inputSize request.slicedIndex)
            request.slicedImage 0 size with
        | .fault => none
        | .fail _ => some (Retcode.failure, none, p)
        | .ok input =>
            let config := { config with input }
            let p := { p with
              handles := p.handles.insert request.handle config }
            if sliceEnd = config.inputSize then
              match p.doProcess infer request.handle config with
              | (result, p) => some (Retcode.success, some result, p)
            else some (Retcode.success, none, p)

end ICPlugin

/-- `SyncMsgHandler::Process` and `SaServerAdapter::SyncExecute`: the response
gets a code, and its result goes out where that is success. -/
def answer (processRetCode : Int) (result : Option (IcResult ω)) :
    Int × Option (IcResult ω) :=
  let retCode :=
    if processRetCode ≠ Retcode.success then Retcode.algorithmProcessError
    else Retcode.success
  if retCode ≠ Retcode.success then (retCode, none) else (retCode, result)

/-! ## The client

The image goes in slices of a bounded size, with a request for each, and the
result is the one that came with the answer to the last of them. -/

namespace IcSdk

/-- A call of the callback, if there is one. -/
def report (s : IcSdk ω) (event : IcEvent ω) : IcSdk ω :=
  if s.hasCallback then { s with events := s.events ++ [event] } else s

/-- `AieClientSyncProcess`. -/
def clientSyncProcess (s : IcSdk ω) (request : SlicedImage) :
    Option (Int × Option (IcResult ω) × IcSdk ω) :=
  match s.plugin.syncProcess infer request with
  | none => none
  | some (processRetCode, result, plugin) =>
      match answer processRetCode result with
      | (retCode, outputInfo) => some (retCode, outputInfo, { s with plugin })

/-- The loop of `OnSyncExecute` from an offset on, for a number of rounds. It
is none where it has not ended by then. -/
def sendSlices (s : IcSdk ω) (image : List UInt8) (offset : Nat)
    (outputInfo : Option (IcResult ω)) :
    Nat → Option (Int × Option (IcResult ω) × IcSdk ω)
  | 0 => none
  | rounds + 1 =>
      if offset < image.length then
        let size := min (image.length - offset) maxIpcBufferSize
        let tmpImage := (image.drop offset).take size
        match s.clientSyncProcess infer ⟨s.icHandle, offset, tmpImage⟩ with
        | none => none
        | some (retCode, outputInfo, s) =>
            if retCode ≠ Retcode.success then
              some (IcRetCode.failure, outputInfo,
                s.report (.onError IcRetCode.failure))
            else
              s.sendSlices image (Abi.ilp32.sizeT (offset + size)) outputInfo
                rounds
      else some (IcRetCode.success, outputInfo, s)

/-- `OnSyncExecute`. Each round sends a byte or more. -/
def onSyncExecute (s : IcSdk ω) (image : List UInt8) :
    Option (Int × Option (IcResult ω) × IcSdk ω) :=
  if image.length = 0 then some (IcRetCode.nullParam, none, s)
  else s.sendSlices infer image 0 none (image.length + 1)

/-- `SyncExecute`. -/
def syncExecute (s : IcSdk ω) (image : List UInt8) :
    Option (Int × IcSdk ω) :=
  match s.onSyncExecute infer image with
  | none => none
  | some (retCode, none, s) =>
      some (retCode, s.report (.onError IcRetCode.failure))
  | some (retCode, some outputInfo, s) =>
      if retCode ≠ IcRetCode.success then
        some (retCode, s.report (.onError IcRetCode.failure))
      else if s.icHandle ≠ outputInfo.handle then
        some (IcRetCode.failure, s.report (.onError IcRetCode.failure))
      else some (IcRetCode.success, s.report (.onResult outputInfo.result))

end IcSdk

/-- One image after the other is sent for one handle, whose model takes a
number of bytes. -/
def imageMachine (inputSize : Nat) : Machine (IcSdk ω) (List UInt8) where
  start s := ∃ config, s.plugin.handles.lookup s.icHandle = some config ∧
    config.inputSize = inputSize ∧ config.input.length = inputSize
  step s image :=
    if image.length < Abi.ilp32.sizeMod then
      (s.syncExecute infer image).map (·.2)
    else none

end AiEngine.Ref
