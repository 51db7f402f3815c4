import AiEngine.Lib.Machine
import AiEngine.Ref.ClientFactory
import AiEngine.Ref.RemoteCall
import AiEngine.Ref.SaServerAdapter

/-!
# A response on its way to a callback

`AsyncProcessWorker::OneAction` of `client_listener_handler.cpp`, which sends
a response, and on the other side `AsyncCallback` of `sa_client.cpp` with
`SaClientCallback` and `AsyncHandler::OnResult`, which hands it to the
callback of its session. The messages are sent without waiting for an answer,
so any number of them can be under way, each with a shared memory segment of
its own if its payload is long.
-/

namespace AiEngine.Ref

open AiEngine.Lib

/-- What `IClientCb::OnResult` of a callback is given. -/
structure CallbackResult where
  cb : Nat
  result : DataInfo
  resultCode : Int
  requestId : Int32
  deriving DecidableEq, Repr

section

variable {Io : Type} (ser : CallSerializer Io) (served : Nat → Bool)

/-- `AsyncProcessWorker::IpcIoResponse` of a response that is there. -/
def ipcIoResponse (response : Response) (h : Host) : Ipc (Io × Host) :=
  let io := ser.writeInt32 ser.init (Int32.ofInt response.retCode)
  let io := ser.writeInt32 io response.requestId
  let io := ser.writeInt32 io (getSessionId response.transactionId)
  parcelDataInfo ser.toSerializer served io h response.result
    response.clientUid

/-- `SaClientCallback`, with `AsyncHandler::OnResult` and `FindCb`: what a
callback is given, if the session has one. -/
def ClientFactory.saClientCallback (f : ClientFactory) (newHandler : Bool)
    (sessionId : Int32) (result : DataInfo) (resultCode : Int)
    (requestId : Int32) : Option CallbackResult × ClientFactory :=
  match f.saAsyncHandlerInstance newHandler with
  | none => (none, f)
  | some h =>
      ((h.mapCbMsg.lookup sessionId).map (⟨·, result, resultCode, requestId⟩),
        { f with saAsyncHandler := some h })

/-- What a client's process grants while it takes a message. -/
structure CallbackMessageEnv where
  newSaClient : Bool
  newSaAsyncHandler : Bool
  deriving DecidableEq, Repr

/-- `AsyncCallback` of `sa_client.cpp`. -/
def ClientFactory.takeAsyncMessage (junk : Int32) (f : ClientFactory)
    (env : CallbackMessageEnv) (data : Io) (h : Host) :
    Ipc (Option CallbackResult × ClientFactory × Host) := do
  let (asyncCallbackRet, data) := ser.readInt32 data
  let (requestId, data) := ser.readInt32 data
  let (sessionId, data) := ser.readInt32 data
  let r ← unParcelDataInfo ser.toSerializer served junk data h ⟨.null, 0⟩
  match f.saClientInstance env.newSaClient with
  | none =>
      let _ ← freeDataInfo r.out
      .ok (none, f, r.host)
  | some c =>
      let f := { f with saClient := some c }
      if ¬ c.resultCb then
        let _ ← freeDataInfo r.out
        .ok (none, f, r.host)
      else
        let retCode :=
          if r.retCode ≠ Retcode.success then Retcode.failure
          else (asyncCallbackRet.getD junk).toInt
        let (result, f) := f.saClientCallback env.newSaAsyncHandler
          (sessionId.getD junk) r.out retCode (requestId.getD junk)
        let _ ← freeDataInfo r.out
        .ok (result, f, r.host)

/-! ## The way from the worker to the client

A response is posted by the server's worker, is on its way, and is then taken
or lost. The client can register, unregister and crash in between. -/

/-- The worker of a client with whether its thread still runs, the messages
under way, the client, and what its callbacks were given. -/
structure AsyncChannel (Io : Type) where
  host : Host
  running : Bool
  inFlight : List Io
  client : ClientFactory
  results : List CallbackResult

/-- What happens: the worker takes a response that was fetched, finding the
client's listener or not and sending the message or not; the client's process
takes the next message; the client changes. -/
inductive ChannelStep where
  | oneAction (response : Response) (listener sendRequest : Bool)
  | asyncCallback (env : CallbackMessageEnv)
  | client (f : ClientFactory)

namespace AsyncChannel

/-- `OneAction` with a response. The response is destroyed at its end, and the
thread goes on only if the message was sent. -/
def oneAction (s : AsyncChannel Io) (response : Response)
    (listener sendRequest : Bool) : Ipc (AsyncChannel Io) := do
  let (io, host) ← ipcIoResponse ser served response s.host
  let _ ← freeDataInfo response.result
  let s := { s with host }
  if ¬ listener then .ok s
  else if ¬ sendRequest then .ok { s with running := false }
  else .ok { s with inFlight := s.inFlight ++ [io] }

def take (junk : Int32) (s : AsyncChannel Io) :
    ChannelStep → Ipc (AsyncChannel Io)
  | .oneAction response listener sendRequest =>
      if s.running then s.oneAction ser served response listener sendRequest
      else .ok s
  | .asyncCallback env =>
      match s.inFlight with
      | [] => .ok s
      | io :: inFlight => do
          let (result, client, host) ←
            s.client.takeAsyncMessage ser served junk env io s.host
          .ok { s with
            host, inFlight, client
            results := s.results ++ result.toList }
  | .client f => .ok { s with client := f }

end AsyncChannel

end

end AiEngine.Ref
