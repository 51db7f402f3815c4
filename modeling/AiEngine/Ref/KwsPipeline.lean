import AiEngine.Lib.Machine
import AiEngine.Lib.Session
import AiEngine.Ref.KwsInference
import AiEngine.Ref.KwsSdk
import AiEngine.Ref.RemoteCall

/-!
# From the samples of a user to the model

The keyword spotting SDK of a client with the plugin of the server behind it.
`Create` and `Execute` are here those of `kws_sdk_impl.cpp` with the codec
they use and the plugin that answers them. A request may get lost on its way,
or its answer may, and before it arrives the plugin may have answered other
clients. What the MFCC processor makes of a window is not known, since it is
not part of the sources: every window of the stream meets an answer of its
own.
-/

namespace AiEngine.Ref

open AiEngine.Lib

section

variable (a : Abi) (heap : Nat → Bool)

/-- `ProcessEncode(inputInfo, kwsHandle_, input)`. -/
def encodeAudio (inputInfo : DataInfo) (kwsHandle : Int)
    (input : CArray .uint16) : Outcome (Int × DataInfo) DataInfo :=
  processEncode a heap inputInfo
    [⟨.fixed a.wordSize, intptr a kwsHandle⟩, ⟨.array .uint16, input⟩]

/-- `ProcessDecode(outputInfo, receivedHandle, kwsResult)`. -/
def decodeResult (outputInfo : DataInfo) :
    Outcome Int (Int × CArray .int32) := do
  match ← processDecode a heap outputInfo
      [⟨.fixed a.wordSize, ParamType.fresh _⟩,
        ⟨.array .int32, ParamType.fresh _⟩] with
  | [⟨.fixed _, receivedHandle⟩, ⟨.array .int32, kwsResult⟩] =>
      .ok (intptrValue a receivedHandle.toList, kwsResult)
  | _ => .fault

end

/-- The elements of an `Array<int32_t>`. -/
def int32s (xs : List (ElemType.Val .int32)) : List Int32 :=
  xs.map Int32.ofBitVec

/-- What a window meets. -/
structure KwsWindowEnv where
  /-- `MFCCProcessor::Process`. -/
  mfcc : List Int16 → Int × CArray .uint16
  encodeHeap : Nat → Bool
  /-- What the plugin is asked by others before. -/
  others : List KWSCall
  transmission : Transmission
  process : KWSProcessEnv
  decodeHeap : Nat → Bool

/-- What `Create` meets. -/
structure KwsCreateEnv where
  /-- The allocations, `AieClientInit`, and what a handle that is not decoded
  is left as. -/
  reply : CreateReply
  others : List KWSCall
  transmission : Transmission
  prepare : KWSPrepareEnv
  decodeHeap : Nat → Bool

/-! ## The SDK and the plugin

The functions of the SDK again, with the plugin at the other end, as for
images. A window is encoded, served beside any calls of others, and its result
decoded. -/

/-- `KWSSdkImpl` and the plugin. Of the stream the samples are kept that the
iterator has accepted since `Create`, and how many windows were taken. -/
structure KwsPipeline where
  sdk : KWSSdkImpl
  plugin : KWSInference
  samples : List Int16
  taken : Nat

namespace KwsPipeline

section

variable (a : Abi) (cast : Cast) (atof : List UInt8 → Float32)

/-- The plugin answers others. -/
def serve (plugin : KWSInference) (others : List KWSCall) :
    Outcome Thrown KWSInference := do
  let (_, plugin) ← session (KWSInference.call a cast atof) plugin others
  .ok plugin

/-- `AieClientPrepare`. -/
def aieClientPrepare (plugin : KWSInference) (env : KwsCreateEnv) :
    Outcome Thrown (Int × DataInfo × KWSInference) := do
  let plugin ← serve a cast atof plugin env.others
  match env.transmission with
  | .lost => .ok (Retcode.failure, ⟨.null, 0⟩, plugin)
  | .unanswered => do
      let (_, _, plugin) ← plugin.prepare a atof env.prepare ⟨.null, 0⟩
      .ok (Retcode.failure, ⟨.null, 0⟩, plugin)
  | .answered => plugin.prepare a atof env.prepare ⟨.null, 0⟩

/-- `AieClientSyncProcess`. -/
def aieClientSyncProcess (plugin : KWSInference) (inputInfo : DataInfo)
    (env : KwsWindowEnv) : Outcome Thrown (Int × DataInfo × KWSInference) := do
  let plugin ← serve a cast atof plugin env.others
  match env.transmission with
  | .lost => .ok (Retcode.failure, ⟨.null, 0⟩, plugin)
  | .unanswered => do
      let (_, _, plugin) ←
        plugin.syncProcess a cast (some inputInfo) env.process
      .ok (Retcode.failure, ⟨.null, 0⟩, plugin)
  | .answered => do
      let (retCode, result, plugin) ←
        plugin.syncProcess a cast (some inputInfo) env.process
      .ok (retCode, result.getD ⟨.null, 0⟩, plugin)

/-- `Create`. -/
def create (s : KwsPipeline) (env : KwsCreateEnv) :
    Outcome Thrown (Int × KwsPipeline) :=
  if s.sdk.kwsHandle ≠ invalidKwsHandle then
    .ok (KwsRetcode.initError, s)
  else
    let (retCode, sdk) := s.sdk.initComponents a env.reply
    if retCode ≠ KwsRetcode.success then
      .ok (KwsRetcode.initError, { s with sdk })
    else
      let sdk := { sdk with clientId := env.reply.clientId }
      if env.reply.clientInit ≠ Retcode.success then
        .ok (KwsRetcode.initError, { s with sdk })
      else if sdk.clientId = -1 then
        .ok (KwsRetcode.initError, { s with sdk })
      else do
        let (retCode, outputInfo, plugin) ←
          aieClientPrepare a cast atof s.plugin env
        let s := { s with sdk, plugin }
        if retCode ≠ Retcode.success then .ok (KwsRetcode.initError, s)
        else if KWSSdkImpl.invalidOutput outputInfo then
          .ok (KwsRetcode.initError, s)
        else
          match decodeHandle a env.decodeHeap outputInfo with
          | .fault => .fault
          | .fail _ => .ok (KwsRetcode.unserializationError,
              { s with sdk := { s.sdk with kwsHandle := env.reply.handle } })
          | .ok kwsHandle => .ok (KwsRetcode.success, { s with
              sdk := { s.sdk with kwsHandle }
              samples := []
              taken := 0 })

def onError (s : KwsPipeline) (errorCode : Int) : Int × KwsPipeline :=
  (errorCode, { s with sdk := (s.sdk.onError errorCode).2 })

/-- `Execute`. -/
def execute (s : KwsPipeline) (input : CArray .uint16) (env : KwsWindowEnv) :
    Outcome Thrown (Int × KwsPipeline) :=
  match encodeAudio a env.encodeHeap ⟨.null, 0⟩ s.sdk.kwsHandle input with
  | .fault => .fault
  | .fail _ => .ok (s.onError KwsRetcode.serializationError)
  | .ok inputInfo => do
      let (retCode, outputInfo, plugin) ←
        aieClientSyncProcess a cast atof s.plugin inputInfo env
      let s := { s with plugin }
      if retCode ≠ Retcode.success then
        .ok (s.onError KwsRetcode.pluginExecutionError)
      else if KWSSdkImpl.invalidOutput outputInfo then
        .ok (s.onError KwsRetcode.nullParam)
      else
        match decodeResult a env.decodeHeap outputInfo with
        | .fault => .fault
        | .fail _ => .ok (s.onError KwsRetcode.unserializationError)
        | .ok (receivedHandle, kwsResult) =>
            if s.sdk.kwsHandle ≠ receivedHandle then
              .ok (s.onError KwsRetcode.pluginSessionError)
            else .ok (KwsRetcode.success, { s with
              sdk := { s.sdk with
                events := s.sdk.events ++
                  [.onResult (int32s (kwsResult.data.getD []))] } })

/-- The loop of `SyncExecute`, for a number of rounds. -/
def executeAll (envs : Nat → KwsWindowEnv) (s : KwsPipeline) :
    Nat → Outcome Thrown (Int × KwsPipeline)
  | 0 => .fault
  | rounds + 1 =>
      match s.sdk.pcmIterator with
      | none => .fault
      | some it =>
          match it.hasNext a with
          | none => .fault
          | some (false, it) => .ok (KwsRetcode.success,
              { s with sdk := { s.sdk with pcmIterator := some it } })
          | some (true, it) =>
              match it.next a with
              | none => .fault
              | some (pcmInput, it) =>
                  let env := envs s.taken
                  let s := { s with
                    sdk := { s.sdk with pcmIterator := some it }
                    taken := s.taken + 1 }
                  if (env.mfcc pcmInput).1 ≠ Retcode.success then
                    .ok (KwsRetcode.failure, s)
                  else do
                    let (retCode, s) ←
                      s.execute a cast atof (env.mfcc pcmInput).2 env
                    if retCode ≠ KwsRetcode.success then .ok (retCode, s)
                    else s.executeAll envs rounds

/-- `SyncExecute`. -/
def syncExecute (envs : Nat → KwsWindowEnv) (s : KwsPipeline)
    (input : List Int16) : Outcome Thrown (Int × KwsPipeline) :=
  if s.sdk.kwsHandle = invalidKwsHandle then .ok (KwsRetcode.failure, s)
  else if ¬ s.sdk.callback then .ok (KwsRetcode.failure, s)
  else
    match s.sdk.pcmIterator with
    | none => .fault
    | some it =>
        match it.setInput a input with
        | none => .fault
        | some (retCode, it) =>
            let s := { s with
              sdk := { s.sdk with pcmIterator := some it } }
            if retCode ≠ Retcode.success then .ok (KwsRetcode.failure, s)
            else { s with samples := s.samples ++ input }.executeAll a cast
              atof envs (input.length + 1)

end

end KwsPipeline

inductive KwsStep where
  | setCallback
  | syncExecute (input : List Int16)
  | others (calls : List KWSCall)

/-- A step, which ends the run if a process does not survive it. -/
def KwsPipeline.step (a : Abi) (cast : Cast) (atof : List UInt8 → Float32)
    (envs : Nat → KwsWindowEnv) (s : KwsPipeline) :
    KwsStep → Option KwsPipeline
  | .setCallback => some { s with sdk := s.sdk.setCallback }
  | .syncExecute input =>
      match s.syncExecute a cast atof envs input with
      | .ok (_, s) => some s
      | .fail _ => none
      | .fault => none
  | .others calls =>
      match serve a cast atof s.plugin calls with
      | .ok plugin => some { s with plugin }
      | .fail _ => none
      | .fault => none

/-- What is done with an SDK that was created; `envs` is what the windows of
its stream meet. -/
def spottingMachine (a : Abi) (cast : Cast) (atof : List UInt8 → Float32)
    (envs : Nat → KwsWindowEnv) (created : KwsPipeline) :
    Machine KwsPipeline KwsStep where
  start s := s = created
  step := KwsPipeline.step a cast atof envs

end AiEngine.Ref
