import AiEngine.Ref.PcmIterator

/-!
# The keyword spotting SDK

`kws_sdk_impl.cpp` up to `Destroy`, over the PCM iterator. What is behind the
client interface answers as it likes, and so do the MFCC processor, which is
not part of the sources, and the codec: a window meets a reply of theirs. What
they compute of a window does not come back to the iterator, so of the
features and of the bytes that are sent only the codes are kept.
-/

namespace AiEngine.Ref

open AiEngine.Lib

namespace KwsRetcode

def failure : Int := -1
def success : Int := 0
def initError : Int := 1001
def nullParam : Int := 1002
def serializationError : Int := 2001
def unserializationError : Int := 2002
def pluginExecutionError : Int := 3001
def pluginSessionError : Int := 3002

end KwsRetcode

/-- `INVALID_KWS_HANDLE`. -/
def invalidKwsHandle : Int := -1

/-- `DEFAULT_MFCC_WINDOW_SIZE_MS` at `DEFAULT_MFCC_SAMPLE_RATE`, in samples. -/
def mfccWindowSize : Nat := 30 * 16000 / 1000

/-- `DEFAULT_MFCC_SLIDE_SIZE_MS` at `DEFAULT_MFCC_SAMPLE_RATE`. -/
def mfccSlideSize : Nat := 20 * 16000 / 1000

/-- `(DEFAULT_SLIDE_STEP_SIZE / DEFAULT_MFCC_NUM_CHANNELS) * slideSize`. -/
def kwsStepSize : Nat := 400 / 40 * mfccSlideSize

def kwsWindowSize : Nat := kwsStepSize + mfccWindowSize - mfccSlideSize

/-! ## The SDK

`KWSSdkImpl` with its iterator. What the feature extraction and the plugin say
to a window is an input of the model, one reply for each window of a call. -/

/-- A call of the `KWSCallback` of the user. -/
inductive KwsEvent where
  | onError (errorCode : Int)
  | onResult (result : List Int32)
  deriving DecidableEq, Repr

/-- `KWSSdkImpl`, and the calls its callback has had. -/
structure KWSSdkImpl where
  callback : Bool
  pcmIterator : Option PCMIterator
  mfccProcessor : Bool
  kwsHandle : Int
  clientId : Int
  events : List KwsEvent
  deriving DecidableEq, Repr

/-- What `Create` meets. -/
structure CreateReply where
  /-- Whether there is memory for an `MFCCProcessor`. -/
  newProcessor : Bool
  processorInit : Int
  /-- Whether there is memory for a `PCMIterator`. -/
  newIterator : Bool
  newCells : Option (Nat → Int16)
  clientInit : Int
  clientId : Int
  clientPrepare : Int
  outputInfo : DataInfo
  decode : Int
  handle : Int

/-- What a window meets. -/
structure WindowReply where
  mfcc : Int
  encode : Int
  syncProcess : Int
  outputInfo : DataInfo
  decode : Int
  receivedHandle : Int
  kwsResult : List Int32
  deriving DecidableEq, Repr

namespace KWSSdkImpl

def new : KWSSdkImpl where
  callback := false
  pcmIterator := none
  mfccProcessor := false
  kwsHandle := invalidKwsHandle
  clientId := -1
  events := []

variable (a : Abi)

/-- `InitComponents`. -/
def initComponents (s : KWSSdkImpl) (env : CreateReply) : Int × KWSSdkImpl :=
  let s := { s with mfccProcessor := env.newProcessor }
  if ¬ env.newProcessor then (KwsRetcode.failure, s)
  else if env.processorInit ≠ Retcode.success then (KwsRetcode.failure, s)
  else if ¬ env.newIterator then
    (KwsRetcode.failure, { s with pcmIterator := none })
  else
    let (retCode, it) :=
      PCMIterator.new.init a kwsStepSize kwsWindowSize env.newCells
    let s := { s with pcmIterator := some it }
    if retCode ≠ Retcode.success then (KwsRetcode.failure, s)
    else (KwsRetcode.success, s)

/-- The output of a call that another process has filled. -/
def invalidOutput (info : DataInfo) : Prop :=
  info.data = .null ∨ info.length ≤ 0

instance (info : DataInfo) : Decidable (invalidOutput info) :=
  inferInstanceAs (Decidable (_ ∨ _))

/-- `Create`. -/
def create (s : KWSSdkImpl) (env : CreateReply) : Int × KWSSdkImpl :=
  if s.kwsHandle ≠ invalidKwsHandle then (KwsRetcode.initError, s)
  else
    let (retCode, s) := s.initComponents a env
    if retCode ≠ KwsRetcode.success then (KwsRetcode.initError, s)
    else
      let s := { s with clientId := env.clientId }
      if env.clientInit ≠ Retcode.success then (KwsRetcode.initError, s)
      else if s.clientId = -1 then (KwsRetcode.initError, s)
      else if env.clientPrepare ≠ Retcode.success then
        (KwsRetcode.initError, s)
      else if invalidOutput env.outputInfo then (KwsRetcode.initError, s)
      else
        let s := { s with kwsHandle := env.handle }
        if env.decode ≠ Retcode.success then
          (KwsRetcode.unserializationError, s)
        else (KwsRetcode.success, s)

/-- `SetCallback`, of a callback that is not null. -/
def setCallback (s : KWSSdkImpl) : KWSSdkImpl := { s with callback := true }

def onError (s : KWSSdkImpl) (errorCode : Int) : Int × KWSSdkImpl :=
  (errorCode, { s with events := s.events ++ [.onError errorCode] })

/-- `Execute`. -/
def execute (s : KWSSdkImpl) (reply : WindowReply) : Int × KWSSdkImpl :=
  if reply.encode ≠ Retcode.success then
    s.onError KwsRetcode.serializationError
  else if reply.syncProcess ≠ Retcode.success then
    s.onError KwsRetcode.pluginExecutionError
  else if invalidOutput reply.outputInfo then
    s.onError KwsRetcode.nullParam
  else if reply.decode ≠ Retcode.success then
    s.onError KwsRetcode.unserializationError
  else if s.kwsHandle ≠ reply.receivedHandle then
    s.onError KwsRetcode.pluginSessionError
  else
    (KwsRetcode.success,
      { s with events := s.events ++ [.onResult reply.kwsResult] })

/-- The loop of `SyncExecute`, for a number of rounds; `replies` is what the
windows from here on meet. It is none where an access leaves an array, and
where the loop has not ended by then. -/
def executeAll (s : KWSSdkImpl) (replies : Nat → WindowReply) :
    Nat → Option (Int × KWSSdkImpl)
  | 0 => none
  | rounds + 1 =>
      match s.pcmIterator with
      | none => none
      | some it =>
          match it.hasNext a with
          | none => none
          | some (false, it) =>
              some (KwsRetcode.success, { s with pcmIterator := some it })
          | some (true, it) =>
              match it.next a with
              | none => none
              | some (_, it) =>
                  let s := { s with pcmIterator := some it }
                  if (replies 0).mfcc ≠ Retcode.success then
                    some (KwsRetcode.failure, s)
                  else
                    let (retCode, s) := s.execute (replies 0)
                    if retCode ≠ KwsRetcode.success then some (retCode, s)
                    else s.executeAll (fun k => replies (k + 1)) rounds

/-- `SyncExecute`. A window ends at a sample of the input, so that there are
no more rounds than samples and one. -/
def syncExecute (s : KWSSdkImpl) (input : List Int16)
    (replies : Nat → WindowReply) : Option (Int × KWSSdkImpl) :=
  if s.kwsHandle = invalidKwsHandle then some (KwsRetcode.failure, s)
  else if ¬ s.callback then some (KwsRetcode.failure, s)
  else
    match s.pcmIterator with
    | none => none
    | some it =>
        match it.setInput a input with
        | none => none
        | some (retCode, it) =>
            let s := { s with pcmIterator := some it }
            if retCode ≠ Retcode.success then some (KwsRetcode.failure, s)
            else s.executeAll a replies (input.length + 1)

end KWSSdkImpl

/-- The MFCC processor and `Execute` succeed. -/
structure WindowReply.Succeeds (reply : WindowReply) (kwsHandle : Int) :
    Prop where
  mfcc : reply.mfcc = Retcode.success
  encode : reply.encode = Retcode.success
  syncProcess : reply.syncProcess = Retcode.success
  outputInfo : ¬ KWSSdkImpl.invalidOutput reply.outputInfo
  decode : reply.decode = Retcode.success
  receivedHandle : kwsHandle = reply.receivedHandle

/-- An SDK, and the samples it was given. -/
structure KwsRun where
  sdk : KWSSdkImpl
  samples : List Int16

/-- A call of `SyncExecute`. Where the model has no result, the SDK is left
without an iterator. -/
structure KwsCall where
  input : List Int16
  replies : Nat → WindowReply

def KwsRun.call (a : Abi) (s : KwsRun) (c : KwsCall) : KwsRun where
  sdk :=
    match s.sdk.syncExecute a c.input c.replies with
    | none => { s.sdk with pcmIterator := none }
    | some (_, sdk) => sdk
  samples := s.samples ++ c.input

/-- An SDK that was created and given a callback is given inputs that are not
empty. -/
def kwsMachine (a : Abi) : Machine KwsRun KwsCall where
  start s := ∃ (s₀ : KWSSdkImpl) (env : CreateReply) (sdk : KWSSdkImpl),
    s₀.create a env = (KwsRetcode.success, sdk) ∧
      sdk.kwsHandle ≠ invalidKwsHandle ∧ s = ⟨sdk.setCallback, []⟩
  step s c := if c.input.length = 0 then none else some (s.call a c)

/-- The next input is accepted, and if every step of that call succeeds, it
returns success. -/
def KwsRun.Enabled (a : Abi) (s : KwsRun) : Prop :=
  ∀ c : KwsCall, 0 < c.input.length →
    (∃ it it', s.sdk.pcmIterator = some it ∧
      it.setInput a c.input = some (Retcode.success, it')) ∧
    ((∀ k, (c.replies k).Succeeds s.sdk.kwsHandle) →
      ∃ sdk, s.sdk.syncExecute a c.input c.replies =
        some (KwsRetcode.success, sdk))

end AiEngine.Ref
