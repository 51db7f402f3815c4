import AiEngine.Lib.Machine
import AiEngine.Lib.Table
import AiEngine.Ref.Platform

/-!
# The audio codecs

`AudioWrapper` of `audio_wrapper.cpp` and `DecoderWrapper` of
`decoder_wrapper.cpp`. The codec is not part of the sources: what its
functions answer comes with each call. A handle that `CodecCreate` hands out
is the number of that call, a coder the number of its construction, and
`coders_` leads to a coder by its address. The state keeps a record of the
calls into the codec and of the coders that were deleted, which no function
reads.
-/

namespace AiEngine.Ref

open AiEngine.Lib

namespace AudioRetCode

def success : Int := 0
def noKey : Int := 1001
def illegalType : Int := 1002
def nullCoder : Int := 1003
def initFailure : Int := 1004
def convertFailure : Int := 1005
def invalidOperation : Int := 1006

end AudioRetCode

/-- `INVALID_HANDLER`. -/
def invalidHandler : Int := -1

/-- `ConvertType`. -/
inductive ConvertType where
  | aacToPcm
  | pcmToAac
  | other (value : Int)
  deriving DecidableEq, Repr

/-- What is recorded. -/
inductive CodecEvent where
  | codecInit (retCode : Int)
  | codecDeinit
  /-- A `CodecCreate` that succeeded. -/
  | codecCreate (coder handle : Nat)
  | codecDestroy (handle : Nat)
  /-- A coder was deleted, after its `Stop` answered this. -/
  | removed (coder : Nat) (retCode : Int)
  /-- A `Deinit` or `Release` left no coders. -/
  | emptied
  deriving DecidableEq, Repr

/-! ## `DecoderWrapper`

The coder of one conversion, with the handle of the codec that is open for it.
What the codec answers comes with each call. -/

structure DecoderWrapper where
  coder : Nat
  codeHandle : Option Nat
  started : Bool
  deriving DecidableEq, Repr

/-- What the codec answers to a `Convert`, and what its streams are. -/
structure ConvertReply where
  dequeInput : Int
  queueInput : Int
  /-- Whether the stream for the result has a buffer. -/
  hasBuffer : Bool
  dequeueOutput : Int
  hasAddr : Bool
  length : Int
  deriving DecidableEq, Repr

namespace DecoderWrapper

/-- `InitCodecAttr`, with the handle that `CodecCreate` may hand out. -/
def initCodecAttr (c : DecoderWrapper) (codecCreate : Int) (handle : Nat) :
    Int × DecoderWrapper :=
  if c.codeHandle.isSome then (AudioRetCode.initFailure, c)
  else if codecCreate ≠ AudioRetCode.success then
    (AudioRetCode.initFailure, c)
  else (AudioRetCode.success, { c with codeHandle := some handle })

/-- `Initialize`. -/
def initializeCoder (c : DecoderWrapper) (isFormatSupported : Bool)
    (codecCreate : Int) (handle : Nat) : Int × DecoderWrapper :=
  if !isFormatSupported then (AudioRetCode.initFailure, c)
  else
    match c.initCodecAttr codecCreate handle with
    | (retCode, c) =>
        if retCode ≠ AudioRetCode.success then (AudioRetCode.initFailure, c)
        else (AudioRetCode.success, c)

/-- `Start`. -/
def start (c : DecoderWrapper) (codecStart : Int) : Int × DecoderWrapper :=
  if c.started then (AudioRetCode.success, c)
  else
    match c.codeHandle with
    | none => (AudioRetCode.nullCoder, c)
    | some _ =>
        if codecStart ≠ AudioRetCode.success then (codecStart, c)
        else (AudioRetCode.success, { c with started := true })

/-- `PushSourceStream`. -/
def pushSourceStream (c : DecoderWrapper) (reply : ConvertReply) : Int :=
  if !c.started then AudioRetCode.convertFailure
  else if c.codeHandle.isNone then AudioRetCode.nullCoder
  else if reply.dequeInput ≠ AudioRetCode.success then reply.dequeInput
  else reply.queueInput

/-- `PullCodedStream`. -/
def pullCodedStream (c : DecoderWrapper) (reply : ConvertReply) : Int :=
  if !c.started then AudioRetCode.invalidOperation
  else if !reply.hasBuffer then AudioRetCode.invalidOperation
  else if c.codeHandle.isNone then AudioRetCode.nullCoder
  else if reply.dequeueOutput ≠ AudioRetCode.success || !reply.hasAddr then
    AudioRetCode.convertFailure
  else if reply.length ≤ 0 then AudioRetCode.convertFailure
  else if !memcpyOk reply.length.toNat reply.length.toNat then
    AudioRetCode.invalidOperation
  else AudioRetCode.success

/-- `Stop`, with the handle it passes to `CodecDestroy`. The coder is deleted
afterwards, so what it is then does not matter. -/
def stop (c : DecoderWrapper) (codecStop : Int) : Int × Option Nat :=
  if !c.started then (AudioRetCode.success, none)
  else
    match c.codeHandle with
    | none => (AudioRetCode.success, none)
    | some handle =>
        if codecStop ≠ AudioRetCode.success then
          (AudioRetCode.invalidOperation, none)
        else (AudioRetCode.success, some handle)

/-- What a `Stop` and the deletion after it are recorded as. -/
def removal (c : DecoderWrapper) (codecStop : Int) : List CodecEvent :=
  ((c.stop codecStop).2.map CodecEvent.codecDestroy).toList ++
    [.removed c.coder (c.stop codecStop).1]

end DecoderWrapper

/-! ## `AudioWrapper`

The coders by their handlers, and whether the codec library was initialised.
The events are what the codec library is asked to do and undo. -/

structure AudioWrapper where
  coders : Table Int DecoderWrapper
  hasInitCodec : Bool
  needCodec : Bool
  /-- Coders constructed so far. -/
  coderCount : Nat
  /-- Handles created so far. -/
  handleCount : Nat
  events : List CodecEvent

namespace AudioWrapper

def new : AudioWrapper := ⟨∅, false, true, 0, 0, []⟩

/-- `SetCodecMode`. -/
def setCodecMode (w : AudioWrapper) (needCodec : Bool) : AudioWrapper :=
  { w with needCodec }

/-- The first lines of `Init`. -/
def codecInit (w : AudioWrapper) (retCode : Int) : AudioWrapper :=
  if w.needCodec && !w.hasInitCodec then
    { w with hasInitCodec := true
             events := w.events ++ [.codecInit retCode] }
  else w

/-- `InitAudioDecoder`, with the address of the new coder if there is one. -/
def initAudioDecoder (w : AudioWrapper) (handler : Int) :
    Option Int → Int × AudioWrapper
  | none => (handler, w)
  | some converter =>
      (converter,
        { w with
          coders := w.coders.insertNew converter ⟨w.coderCount, none, false⟩
          coderCount := w.coderCount + 1 })

/-- `Init`: the return code and the handler. -/
def init (w : AudioWrapper) (typeId : ConvertType) (handler : Int)
    (codecInit : Int) (converter : Option Int) : Int × Int × AudioWrapper :=
  if handler ≠ invalidHandler then (AudioRetCode.initFailure, handler, w)
  else
    let w := w.codecInit codecInit
    match typeId with
    | .aacToPcm => (AudioRetCode.success, w.initAudioDecoder handler converter)
    | .pcmToAac => (AudioRetCode.illegalType, handler, w)
    | .other _ => (AudioRetCode.illegalType, handler, w)

/-- The last lines of `Release` and, where `isEmpty`, of `Deinit`. -/
def codecDeinit (w : AudioWrapper) (isEmpty : Bool) : AudioWrapper :=
  if isEmpty && w.needCodec && w.hasInitCodec then
    { w with hasInitCodec := false
             events := w.events ++ [.codecDeinit] }
  else w

/-- The record of the end of a `Deinit` or `Release`. -/
def recordEmptied (w : AudioWrapper) : AudioWrapper :=
  if w.coders = ∅ then { w with events := w.events ++ [.emptied] } else w

/-- `Stop` of the coder at an address, and its deletion. -/
def removeCoder (w : AudioWrapper) (handler codecStop : Int) : AudioWrapper :=
  match w.coders.lookup handler with
  | none => w
  | some c =>
      { w with coders := w.coders.erase handler
               events := w.events ++ c.removal codecStop }

/-- `Release`. The coders are stopped in the order of `coders_`. -/
def release (w : AudioWrapper) (order : List Int) (codecStop : Int → Int) :
    AudioWrapper :=
  let w := order.foldl (fun w handler =>
    w.removeCoder handler (codecStop handler)) w
  let w := { w with coders := ∅ }
  (w.codecDeinit true).recordEmptied

/-- `Deinit`. -/
def deinit (w : AudioWrapper) (handler codecStop : Int) :
    Int × AudioWrapper :=
  match w.coders.lookup handler with
  | none => (AudioRetCode.noKey, w)
  | some c =>
      let retCode := (c.stop codecStop).1
      let w := w.removeCoder handler codecStop
      (retCode, (w.codecDeinit (w.coders = ∅)).recordEmptied)

/-- `SetConfig`. -/
def setConfig (w : AudioWrapper) (handler : Int) (isFormatSupported : Bool)
    (codecCreate : Int) : Int × AudioWrapper :=
  match w.coders.lookup handler with
  | none => (AudioRetCode.noKey, w)
  | some c =>
      match c.initializeCoder isFormatSupported codecCreate w.handleCount with
      | (retCode, c) =>
          if retCode ≠ AudioRetCode.success then (retCode, w)
          else
            (retCode,
              { w with
                coders := w.coders.insert handler c
                handleCount := w.handleCount + 1
                events := w.events ++
                  [.codecCreate c.coder w.handleCount] })

/-- `StartCodec`. -/
def startCodec (w : AudioWrapper) (handler codecStart : Int) :
    Int × AudioWrapper :=
  match w.coders.lookup handler with
  | none => (AudioRetCode.noKey, w)
  | some c =>
      match c.start codecStart with
      | (retCode, c) =>
          let w := { w with coders := w.coders.insert handler c }
          if retCode ≠ AudioRetCode.success then
            (AudioRetCode.convertFailure, w)
          else (AudioRetCode.success, w)

/-- `Convert`. -/
def convert (w : AudioWrapper) (handler : Int) (reply : ConvertReply) :
    Int × AudioWrapper :=
  match w.coders.lookup handler with
  | none => (AudioRetCode.noKey, w)
  | some c =>
      if c.pushSourceStream reply ≠ AudioRetCode.success then
        (AudioRetCode.convertFailure, w)
      else (c.pullCodedStream reply, w)

/-- A call, and what the codec and the heap answer to it. -/
inductive Call where
  | setCodecMode (needCodec : Bool)
  | init (typeId : ConvertType) (handler codecInit : Int)
      (converter : Option Int)
  | setConfig (handler : Int) (isFormatSupported : Bool) (codecCreate : Int)
  | startCodec (handler codecStart : Int)
  | convert (handler : Int) (reply : ConvertReply)
  | deinit (handler codecStop : Int)
  | release (order : List Int) (codecStop : Int → Int)

/-- One call. A new coder is not where another one is, and the loop of
`Release` meets every coder once; there are no other steps. -/
def call (w : AudioWrapper) : Call → Option AudioWrapper
  | .setCodecMode needCodec => some (w.setCodecMode needCodec)
  | .init typeId handler codecInit converter =>
      if ∃ address ∈ converter, address ∈ w.coders then none
      else some (w.init typeId handler codecInit converter).2.2
  | .setConfig handler isFormatSupported codecCreate =>
      some (w.setConfig handler isFormatSupported codecCreate).2
  | .startCodec handler codecStart =>
      some (w.startCodec handler codecStart).2
  | .convert handler reply => some (w.convert handler reply).2
  | .deinit handler codecStop => some (w.deinit handler codecStop).2
  | .release order codecStop =>
      if order.Nodup ∧ order.toFinset = w.coders.keys then
        some (w.release order codecStop)
      else none

/-- An `AudioWrapper` and the calls made on it. -/
def machine : Machine AudioWrapper Call where
  start w := w = new
  step := call

end AudioWrapper

end AiEngine.Ref
